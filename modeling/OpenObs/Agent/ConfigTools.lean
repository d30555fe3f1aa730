import OpenObs.Agent.ToolContext

/-!
# The configuration tools

`handlers/config.ts`: the tools on connectors and on the settings of the org. All of
them ask the injected service, and say so where there is none. A proposal and a
setting are refused where an argument looks like a credential.
-/

namespace OpenObs.Agent

open OpenObs.Foundation OpenObs.Rules

variable {κ δ : Type} (ctx : ToolContext κ δ)

/-! ## Arguments -/

def CREDENTIAL_KEYS : List String :=
  ["password", "passwd", "token", "apikey", "api_key", "authorization", "secret", "credential",
    "privatekey", "private_key", "kubeconfig"]

def SETTING_KEYS : List String :=
  ["default_alert_folder_uid", "default_dashboard_folder_uid", "notification_default_channel",
    "auto_investigation_enabled"]

def credentialIn (r : Json.Record) : Option String :=
  (r.find? fun f => decide (ctx.platform.toLowerCase f.1 ∈ CREDENTIAL_KEYS) &&
    (match f.2 with
      | .null => false
      | .str s => s ≠ ""
      | _ => true)).map (·.1)

def rawCredential (what : String) : String :=
  "Refusing to accept raw " ++ what ++
    ". Capture secrets through the connector secret endpoint, then reference the connector by id."

def rejectRawCredentials (args : Json.Record) : Option String :=
  match credentialIn ctx args with
  | some key => some (rawCredential ("\"" ++ key ++ "\""))
  | none =>
    match Json.field args "config" with
    | some (.obj config) =>
      (credentialIn ctx config).map fun key => rawCredential ("config." ++ key)
    | _ => none

def optionalString (v : Option Json) : Option String := Folders.truthy (some (trimmed v))

def asRecord : Option Json → Option Json.Record
  | some (.obj r) => some r
  | _ => none

/-- `xs.join(', ') || 'none'`. -/
def orNone (xs : List String) : String :=
  (Folders.truthy (some (", ".intercalate xs))).getD "none"

def onConfigService (unavailable : String)
    (handler : ConfigService κ δ → Prog (AgentState κ δ) String) : Prog (AgentState κ δ) String :=
  match ctx.configService with
  | none => return unavailable
  | some service => handler service

/-! ## Connectors -/

def handleConnectorList (args : Json.Record) : Prog (AgentState κ δ) String :=
  onConfigService ctx
    "Connector listing is not available in this deployment. Use Settings → Connectors."
    fun service => do
      let connectors ← (service.listConnectors ctx.caller.orgId
        (optionalString (Json.field args "category"))
        (optionalString (Json.field args "capability"))
        (optionalString (Json.field args "status"))).zoom AgentState.configPart
      if connectors = [] then return "No connectors match that filter."
      else return ctx.platform.stringify (.obj [("connectors", .arr connectors)])

def handleConnectorTemplateList (args : Json.Record) : Prog (AgentState κ δ) String :=
  onConfigService ctx
    "Connector templates are not available in this deployment. Use Settings → Connectors."
    fun service => do
      let templates ← (service.listConnectorTemplates
        (optionalString (Json.field args "category"))
        (optionalString (Json.field args "capability"))).zoom AgentState.configPart
      if templates = [] then return "No connector templates match that filter."
      else return ctx.platform.stringify (.obj [("templates", .arr templates)])

def handleConnectorDetect (args : Json.Record) : Prog (AgentState κ δ) String :=
  onConfigService ctx
    "Connector detection is not available in this deployment. Use Settings → Connectors."
    fun service => do
      let candidates ← (service.detectConnectors ctx.caller.orgId
        (optionalString (Json.field args "template"))).zoom AgentState.configPart
      if candidates = [] then return "No connector candidates detected."
      else return ctx.platform.stringify (.obj [("candidates", .arr candidates)])

def connectorProposal (args : Json.Record) : Except String ConnectorProposal :=
  match optionalString (Json.field args "template"), optionalString (Json.field args "name"),
      asRecord (Json.field args "config") with
  | none, _, _ => .error "Error: \"template\" is required."
  | some _, none, _ => .error "Error: \"name\" is required."
  | some _, some _, none => .error "Error: \"config\" must be an object."
  | some template, some name, some config => .ok {
      orgId := ctx.caller.orgId
      template
      name
      config
      scope := asRecord (Json.field args "scope")
      isDefault := match Json.field args "isDefault" with
        | some (.bool b) => b
        | _ => false
      actorUserId := ctx.caller.userId }

def handleConnectorPropose (args : Json.Record) : Prog (AgentState κ δ) String :=
  match rejectRawCredentials ctx args with
  | some e => return "Error: " ++ e
  | none => onConfigService ctx
      "Connector proposal is not available in this deployment. Use Settings → Connectors."
      fun service =>
        match connectorProposal ctx args with
        | .error e => return e
        | .ok proposal => do
            let draft ← (service.proposeConnector proposal).zoom AgentState.configPart
            return "Proposed " ++ proposal.template ++ " connector \"" ++ proposal.name ++
              "\" (draftId: " ++ draft.draftId ++ ")." ++
              (if draft.needsCredential then
                " needsCredential=true. Capture the secret with POST /api/connectors/:id/secret after apply."
              else " needsCredential=false.") ++
              " Capabilities: " ++ orNone draft.capabilityPreview ++ "."

def handleConnectorApply (args : Json.Record) : Prog (AgentState κ δ) String :=
  onConfigService ctx
    "Connector apply is not available in this deployment. Use Settings → Connectors."
    fun service =>
      match optionalString (Json.field args "draftId") with
      | none => return "Error: \"draftId\" is required."
      | some draftId => do
          let applied ← (service.applyConnectorDraft ctx.caller.orgId draftId
            ctx.caller.userId).zoom AgentState.configPart
          return "Applied connector draft " ++ draftId ++ ". connectorId=" ++
            applied.connectorId ++ ", status=" ++ applied.status ++ ", capabilities=" ++
            orNone applied.capabilities ++ "."

def handleConnectorTest (args : Json.Record) : Prog (AgentState κ δ) String :=
  onConfigService ctx
    "Connector testing is not available in this deployment. Use Settings → Connectors."
    fun service =>
      match optionalString (Json.field args "connectorId") with
      | none => return "Error: \"connectorId\" is required."
      | some connectorId => do
          let result ← (service.testConnector connectorId ctx.caller.orgId).zoom
            AgentState.configPart
          if result.ok then
            return "Connector " ++ connectorId ++ " test OK" ++ (match result.latencyMs with
              | some latencyMs => " (" ++ latencyMs ++ "ms)"
              | none => "") ++ ". Capabilities: " ++ orNone result.capabilities ++ "."
          else
            return "Connector " ++ connectorId ++ " test FAILED: " ++
              result.error.getD "unknown error" ++ "."

/-! ## Settings -/

def notAllowlisted (key what : String) : String :=
  "Error: \"" ++ key ++ "\" is not in the " ++ what ++ " settings allowlist. Allowed keys: " ++
    ", ".intercalate SETTING_KEYS ++ "."

def handleSettingGet (args : Json.Record) : Prog (AgentState κ δ) String :=
  onConfigService ctx "Settings reads are not available in this deployment. Use Settings."
    fun service =>
      match optionalString (Json.field args "key") with
      | none => return "Error: \"key\" is required."
      | some key =>
        if key ∉ SETTING_KEYS then return notAllowlisted key "AI-readable"
        else do
          let value ← (service.getSetting key ctx.caller.orgId).zoom AgentState.configPart
          match value with
          | none => return "Setting \"" ++ key ++ "\" is not set."
          | some value => return "Setting \"" ++ key ++ "\" is \"" ++ value ++ "\"."

def handleSettingSet (args : Json.Record) : Prog (AgentState κ δ) String :=
  match rejectRawCredentials ctx args with
  | some e => return "Error: " ++ e
  | none => onConfigService ctx
      "Settings writes are not available in this deployment. Use Settings."
      fun service =>
        match optionalString (Json.field args "key") with
        | none => return "Error: \"key\" is required."
        | some key =>
          if key ∉ SETTING_KEYS then return notAllowlisted key "AI-configurable"
          else
            match Folders.truthy (asText (Json.field args "value")) with
            | none => return "Error: \"value\" is required."
            | some value => do
                let previous ← (service.getSetting key ctx.caller.orgId).zoom
                  AgentState.configPart
                (service.setSetting key value ctx.caller.orgId ctx.caller.userId).zoom
                  AgentState.configPart
                match previous with
                | none => return "Set \"" ++ key ++ "\" to \"" ++ value ++ "\"."
                | some previous => return "Updated \"" ++ key ++ "\" from \"" ++ previous ++
                    "\" to \"" ++ value ++ "\"."

end OpenObs.Agent
