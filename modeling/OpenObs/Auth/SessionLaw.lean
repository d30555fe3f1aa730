import Mathlib.Data.List.Nodup
import OpenObs.Auth.Sessions

/-!
# The session law

What a session is, told without hashes and rows: the tokens it has had, the newest
first, and when it was created, rotated and touched. `tableAfter_eq` says that the table
is the image of these sessions; which tokens are accepted is then a matter of their
histories.
-/

namespace OpenObs.Auth

open OpenObs.Foundation

/-! ## Sessions and their histories -/

structure Session where
  id : String
  userId : String
  userAgent : String
  clientIp : String
  current : String
  earlier : List String
  seenAt : Option ℤ
  createdAt : ℤ
  rotatedAt : ℤ
  touchedAt : ℤ
  revokedAt : Option ℤ

namespace Session

def tokens (s : Session) : List String := s.current :: s.earlier

def rotate (s : Session) (k : Clock) (token : String) : Session :=
  { s with current := token, earlier := s.tokens, rotatedAt := k.now, touchedAt := k.nowIso }

def revoke (s : Session) (k : Clock) : Session :=
  { s with revokedAt := some k.now, touchedAt := k.nowIso }

def row (sha256 : String → String) (s : Session) : UserAuthToken where
  id := s.id
  userId := s.userId
  authToken := sha256 s.current
  prevAuthToken := (s.earlier.head?.map sha256).getD ""
  userAgent := s.userAgent
  clientIp := s.clientIp
  authTokenSeen := s.seenAt.isSome
  seenAt := s.seenAt
  rotatedAt := s.rotatedAt
  createdAt := s.createdAt
  updatedAt := s.touchedAt
  revokedAt := s.revokedAt

end Session

def Session.step (svc : SessionService) (k : Clock) (ss : List Session) : Call → List Session
  | .create id bytes userId userAgent clientIp =>
    if id ∈ ss.map (·.id) then ss
    else
      ss ++ [{ id := id, userId := userId, userAgent := userAgent, clientIp := clientIp,
               current := generateSessionToken bytes, earlier := [], seenAt := none,
               createdAt := k.now, rotatedAt := k.now, touchedAt := k.now, revokedAt := none }]
  | .rotate id bytes =>
    ss.map fun s =>
      if s.id = id ∧ s.revokedAt = none then s.rotate k (generateSessionToken bytes) else s
  | .markSeen id seen =>
    ss.map fun s =>
      if s.id = id then { s with seenAt := some (seen.getD k.now), touchedAt := k.nowIso } else s
  | .revoke id => ss.map fun s => if s.id = id then s.revoke k else s
  | .revokeAllForUser userId =>
    ss.map fun s => if s.userId = userId ∧ s.revokedAt = none then s.revoke k else s
  | .pruneExpired =>
    ss.filter fun s => !decide (s.createdAt < timeClip (k.now - svc.maxLifetimeMs))
  | .lookupByToken _ => ss

def sessionsAfter (svc : SessionService) (calls : List Served) : List Session :=
  calls.foldl (fun ss s => Session.step svc s.clock ss s.call) []

def Call.token : Call → Option String
  | .create _ bytes _ _ _ => some (generateSessionToken bytes)
  | .rotate _ bytes => some (generateSessionToken bytes)
  | _ => none

def tokensDrawn (calls : List Served) : List String := calls.filterMap (·.call.token)

def readings (calls : List Served) : List ℤ :=
  calls.flatMap fun s => [s.clock.now, s.clock.nowIso]

structure Digest (sha256 : String → String) : Prop where
  injective : Function.Injective sha256
  ne_empty : ∀ s, sha256 s ≠ ""

/-- The sessions have distinct ids and no token twice, all of them drawn; each was created
before it was rotated, and rotated before it was touched last. -/
structure WellKept (drawn : List String) (now : ℤ) (ss : List Session) : Prop where
  apart : ss.Pairwise fun s s' => s.id ≠ s'.id ∧ s.tokens.Disjoint s'.tokens
  nodup : ∀ s ∈ ss, s.tokens.Nodup
  drawn : ∀ s ∈ ss, ∀ tok ∈ s.tokens, tok ∈ drawn
  dates : ∀ s ∈ ss, s.createdAt ≤ s.rotatedAt ∧ s.rotatedAt ≤ s.touchedAt ∧ s.touchedAt ≤ now

section Keeping

variable {svc : SessionService} {k : Clock} {ss : List Session} {drawn : List String} {now : ℤ}

theorem WellKept.apart_of_ne (hk : WellKept drawn now ss) {s s' : Session} (hs : s ∈ ss)
    (hs' : s' ∈ ss) (hne : s ≠ s') : s.id ≠ s'.id ∧ s.tokens.Disjoint s'.tokens := by
  have hsymm : Std.Symm fun s s' : Session => s.id ≠ s'.id ∧ s.tokens.Disjoint s'.tokens :=
    ⟨fun _ _ h => ⟨Ne.symm h.1, fun _ ha hb => h.2 hb ha⟩⟩
  exact hk.apart.forall hs hs' hne

theorem WellKept.eq_of_id (hk : WellKept drawn now ss) {s s' : Session} (hs : s ∈ ss)
    (hs' : s' ∈ ss) (hid : s.id = s'.id) : s = s' := by
  by_contra hne
  exact (hk.apart_of_ne hs hs' hne).1 hid

theorem WellKept.eq_of_token (hk : WellKept drawn now ss) {s s' : Session} (hs : s ∈ ss)
    (hs' : s' ∈ ss) {tok : String} (htok : tok ∈ s.tokens) (htok' : tok ∈ s'.tokens) : s = s' := by
  by_contra hne
  exact (hk.apart_of_ne hs hs' hne).2 htok htok'

theorem WellKept.later (hk : WellKept drawn now ss) (more : List String) {now' : ℤ}
    (hle : now ≤ now') : WellKept (drawn ++ more) now' ss :=
  ⟨hk.apart, hk.nodup, fun s hs tok htok => List.mem_append_left _ (hk.drawn s hs tok htok),
    fun s hs => ⟨(hk.dates s hs).1, (hk.dates s hs).2.1, (hk.dates s hs).2.2.trans hle⟩⟩

theorem WellKept.touch (hk : WellKept drawn now ss) (hnow : now ≤ k.now)
    (hiso : k.now ≤ k.nowIso) {fresh : Option String}
    (hfresh : ∀ tok, fresh = some tok → tok ∉ drawn) (id : String) {p : Session → Prop}
    [DecidablePred p] {f : Session → Session} (hid : ∀ s, (f s).id = s.id)
    (htok : ∀ s, p s → (f s).tokens = s.tokens ∨
      s.id = id ∧ ∃ tok, fresh = some tok ∧ (f s).tokens = tok :: s.tokens)
    (hdates : ∀ s, (f s).createdAt = s.createdAt ∧
      ((f s).rotatedAt = s.rotatedAt ∨ (f s).rotatedAt = k.now) ∧ (f s).touchedAt = k.nowIso) :
    WellKept (drawn ++ fresh.toList) k.nowIso (ss.map fun s => if p s then f s else s) := by
  have hid' : ∀ s, (if p s then f s else s).id = s.id := by
    intro s
    split
    · exact hid s
    · rfl
  have htok' : ∀ s, (if p s then f s else s).tokens = s.tokens ∨
      s.id = id ∧ ∃ tok, fresh = some tok ∧ (if p s then f s else s).tokens = tok :: s.tokens := by
    intro s
    split
    · exact htok s ‹_›
    · exact Or.inl rfl
  refine ⟨?_, ?_, ?_, ?_⟩
  · rw [List.pairwise_map]
    refine hk.apart.imp_of_mem fun {s s'} hs hs' hapart => ?_
    refine ⟨by rw [hid', hid']; exact hapart.1, ?_⟩
    -- at most one of the two has the fresh token, which the other never drew
    rcases htok' s with heq | ⟨hsid, tok, hsome, heq⟩ <;>
      rcases htok' s' with heq' | ⟨hsid', tok', hsome', heq'⟩ <;> rw [heq, heq']
    · exact hapart.2
    · rw [List.disjoint_cons_right]
      exact ⟨fun hmem => hfresh tok' hsome' (hk.drawn s hs tok' hmem), hapart.2⟩
    · rw [List.disjoint_cons_left]
      exact ⟨fun hmem => hfresh tok hsome (hk.drawn s' hs' tok hmem), hapart.2⟩
    · exact absurd (hsid.trans hsid'.symm) hapart.1
  · intro s' hs'
    obtain ⟨s, hs, rfl⟩ := List.mem_map.mp hs'
    rcases htok' s with heq | ⟨-, tok, hsome, heq⟩ <;> rw [heq]
    · exact hk.nodup s hs
    · exact List.nodup_cons.mpr
        ⟨fun hmem => hfresh tok hsome (hk.drawn s hs tok hmem), hk.nodup s hs⟩
  · intro s' hs' tok htok
    obtain ⟨s, hs, rfl⟩ := List.mem_map.mp hs'
    rcases htok' s with heq | ⟨-, t, hsome, heq⟩ <;> rw [heq] at htok
    · exact List.mem_append_left _ (hk.drawn s hs tok htok)
    · rcases List.mem_cons.mp htok with rfl | htok
      · simp [hsome]
      · exact List.mem_append_left _ (hk.drawn s hs tok htok)
  · intro s' hs'
    obtain ⟨s, hs, rfl⟩ := List.mem_map.mp hs'
    obtain ⟨hc, hr, ht⟩ := hk.dates s hs
    obtain ⟨hcreated, hrotated, htouched⟩ := hdates s
    split
    · rw [hcreated, htouched]
      rcases hrotated with heq | heq <;> rw [heq] <;> omega
    · omega

theorem WellKept.create (hk : WellKept drawn now ss) (hnow : now ≤ k.now)
    (hiso : k.now ≤ k.nowIso) {s : Session} (hid : s.id ∉ ss.map (·.id)) {tok : String}
    (hfresh : tok ∉ drawn) (htokens : s.tokens = [tok])
    (hdates : s.createdAt = k.now ∧ s.rotatedAt = k.now ∧ s.touchedAt = k.now) :
    WellKept (drawn ++ [tok]) k.nowIso (ss ++ [s]) := by
  have hstay := hk.later [tok] (hnow.trans hiso)
  have hsplit : ∀ {x : Session}, x ∈ ss ++ [s] → x ∈ ss ∨ x = s := by
    intro x hx
    exact (List.mem_append.mp hx).imp_right List.mem_singleton.mp
  refine ⟨?_, ?_, ?_, ?_⟩
  · rw [List.pairwise_append]
    refine ⟨hk.apart, List.pairwise_singleton _ _, fun s' hs' x hx => ?_⟩
    rw [List.mem_singleton.mp hx, htokens, List.disjoint_singleton]
    exact ⟨fun heq => hid (List.mem_map.mpr ⟨s', hs', heq⟩),
      fun hmem => hfresh (hk.drawn s' hs' tok hmem)⟩
  · intro x hx
    rcases hsplit hx with hx | rfl
    · exact hk.nodup x hx
    · rw [htokens]
      exact List.nodup_singleton tok
  · intro x hx t ht
    rcases hsplit hx with hx | rfl
    · exact hstay.drawn x hx t ht
    · rw [htokens] at ht
      exact List.mem_append_right _ ht
  · intro x hx
    rcases hsplit hx with hx | rfl
    · exact hstay.dates x hx
    · omega

theorem WellKept.step (hk : WellKept drawn now ss) (call : Call) (hnow : now ≤ k.now)
    (hiso : k.now ≤ k.nowIso) (hfresh : ∀ tok, call.token = some tok → tok ∉ drawn) :
    WellKept (drawn ++ call.token.toList) k.nowIso (Session.step svc k ss call) := by
  have hstay := hk.later call.token.toList (hnow.trans hiso)
  cases call with
  | create id bytes userId userAgent clientIp =>
    simp only [Session.step]
    split
    · exact hstay
    · rename_i hid
      exact hk.create hnow hiso hid (hfresh _ rfl) rfl ⟨rfl, rfl, rfl⟩
  | rotate id bytes =>
    exact hk.touch hnow hiso hfresh id (fun _ => rfl) (fun _ h => Or.inr ⟨h.1, _, rfl, rfl⟩)
      fun _ => ⟨rfl, Or.inr rfl, rfl⟩
  | markSeen id seen =>
    exact hk.touch hnow hiso hfresh id (fun _ => rfl) (fun _ _ => Or.inl rfl)
      fun _ => ⟨rfl, Or.inl rfl, rfl⟩
  | revoke id =>
    exact hk.touch hnow hiso hfresh id (fun _ => rfl) (fun _ _ => Or.inl rfl)
      fun _ => ⟨rfl, Or.inl rfl, rfl⟩
  | revokeAllForUser userId =>
    exact hk.touch hnow hiso hfresh userId (fun _ => rfl) (fun _ _ => Or.inl rfl)
      fun _ => ⟨rfl, Or.inl rfl, rfl⟩
  | pruneExpired =>
    exact ⟨hstay.apart.filter _, fun s hs => hstay.nodup s (List.mem_of_mem_filter hs),
      fun s hs => hstay.drawn s (List.mem_of_mem_filter hs),
      fun s hs => hstay.dates s (List.mem_of_mem_filter hs)⟩
  | lookupByToken rawToken => exact hstay

end Keeping

/-! ## The table is the image of the sessions -/

section Refinement

variable {svc : SessionService} {k : Clock} {ss : List Session} {drawn : List String} {now : ℤ}

theorem map_rows {p : UserAuthToken → Prop} {q : Session → Prop} [DecidablePred p]
    [DecidablePred q] {set : UserAuthToken → UserAuthToken} {f : Session → Session}
    (hpq : ∀ s ∈ ss, p (s.row svc.sha256) ↔ q s)
    (hset : ∀ s, set (s.row svc.sha256) = (f s).row svc.sha256) :
    (ss.map (Session.row svc.sha256)).map (fun r => if p r then set r else r) =
      (ss.map fun s => if q s then f s else s).map (Session.row svc.sha256) := by
  rw [List.map_map, List.map_map]
  apply List.map_congr_left
  intro s hs
  simp only [Function.comp_apply]
  by_cases hq : q s
  · rw [if_pos ((hpq s hs).mpr hq), if_pos hq, hset]
  · rw [if_neg fun hp => hq ((hpq s hs).mp hp), if_neg hq]

theorem findById_rows {id : String} :
    Table.findById (ss.map (Session.row svc.sha256)) id =
      (ss.find? (·.id = id)).map (Session.row svc.sha256) := by
  rw [Table.findById, List.find?_map]
  rfl

theorem create_rows (hsha : Function.Injective svc.sha256) (hk : WellKept drawn now ss)
    {s : Session} (hfresh : s.current ∉ drawn) :
    Table.create (ss.map (Session.row svc.sha256)) (s.row svc.sha256) =
      if s.id ∈ ss.map (·.id) then .error "UNIQUE constraint failed"
      else .ok (s.row svc.sha256, (ss ++ [s]).map (Session.row svc.sha256)) := by
  have hdup : (ss.map (Session.row svc.sha256)).any (fun r =>
      r.id = (s.row svc.sha256).id ∨ r.authToken = (s.row svc.sha256).authToken) = true ↔
      s.id ∈ ss.map (·.id) := by
    rw [List.any_map, List.any_eq_true, List.mem_map]
    constructor
    · rintro ⟨x, hx, hsame⟩
      rcases of_decide_eq_true hsame with hid | htok
      · exact ⟨x, hx, hid⟩
      · -- the token of an old session was drawn before
        rw [← hsha htok] at hfresh
        exact absurd (hk.drawn x hx _ List.mem_cons_self) hfresh
    · rintro ⟨x, hx, hid⟩
      exact ⟨x, hx, decide_eq_true (Or.inl hid)⟩
  unfold Table.create
  split
  · rename_i h
    rw [if_pos (hdup.mp h)]
  · rename_i h
    have hnew : s.id ∉ ss.map (·.id) := fun hid => h (hdup.mpr hid)
    have hfind : Table.findById (ss.map (Session.row svc.sha256) ++ [s.row svc.sha256])
        (s.row svc.sha256).id = some (s.row svc.sha256) := by
      have hold : ss.find? (·.id = s.id) = none := by
        rw [List.find?_eq_none]
        intro x hx hid
        exact hnew (List.mem_map.mpr ⟨x, hx, of_decide_eq_true hid⟩)
      rw [← List.map_singleton, ← List.map_append, findById_rows, List.find?_append]
      change Option.map _ ((ss.find? (·.id = s.id)).or _) = _
      rw [hold, Option.none_or, List.find?_cons_of_pos (by simp [Session.row])]
      rfl
    rw [if_neg hnew, hfind]
    simp

theorem rotate_rows (hsha : Function.Injective svc.sha256) (hk : WellKept drawn now ss)
    (k : Clock) (id : String) {bytes : String} (hfresh : generateSessionToken bytes ∉ drawn) :
    ∃ session, svc.rotate k id bytes (ss.map (Session.row svc.sha256)) =
      .ok (session, (Session.step svc k ss (.rotate id bytes)).map (Session.row svc.sha256)) := by
  have hsame : ∀ {f : Session → Session},
      (∀ s ∈ ss, s.id = id → s.revokedAt ≠ none) →
      (ss.map fun s => if s.id = id ∧ s.revokedAt = none then f s else s) = ss := by
    intro f hgone
    conv_rhs => rw [← List.map_id ss]
    apply List.map_congr_left
    intro s hs
    rw [if_neg fun h => hgone s hs h.1 h.2]
    rfl
  simp only [SessionService.rotate, Table.rotate, findById_rows, Session.step]
  cases hfind : ss.find? (·.id = id) with
  | none =>
    have hnone : ∀ s ∈ ss, s.id ≠ id := by simpa using hfind
    rw [hsame fun s hs hid => absurd hid (hnone s hs)]
    exact ⟨none, rfl⟩
  | some existing =>
    have hmem := List.mem_of_find?_eq_some hfind
    have hid : existing.id = id := by simpa using List.find?_some hfind
    have hunique : ∀ s ∈ ss, s.id = id → s = existing :=
      fun s hs h => hk.eq_of_id hs hmem (h.trans hid.symm)
    simp only [Option.map_some]
    by_cases hrevoked : existing.revokedAt = none
    · have hclash : (ss.map (Session.row svc.sha256)).any (fun r =>
          r.id ≠ id ∧ r.authToken = svc.hashSessionToken (generateSessionToken bytes)) = false := by
        rw [List.any_map, List.any_eq_false]
        intro x hx hclash
        have htok : svc.sha256 x.current = svc.sha256 (generateSessionToken bytes) :=
          (of_decide_eq_true hclash).2
        rw [← hsha htok] at hfresh
        exact hfresh (hk.drawn x hx _ List.mem_cons_self)
      rw [if_neg (by simp [Session.row, hrevoked]), hclash]
      refine ⟨_, congrArg Except.ok (Prod.ext rfl ?_)⟩
      refine map_rows (fun s hs => ⟨fun h => ⟨h, ?_⟩, fun h => h.1⟩) fun s => rfl
      rw [hunique s hs h]
      exact hrevoked
    · rw [if_pos (by simpa [Session.row] using hrevoked),
        hsame fun s hs h => by rw [hunique s hs h]; exact hrevoked]
      exact ⟨none, rfl⟩

theorem serve_rows (hsha : Function.Injective svc.sha256) (hk : WellKept drawn now ss)
    (call : Call) (hfresh : ∀ tok, call.token = some tok → tok ∉ drawn) :
    (serve svc k (ss.map (Session.row svc.sha256)) call).2 =
      (Session.step svc k ss call).map (Session.row svc.sha256) := by
  cases call with
  | create id bytes userId userAgent clientIp =>
    let s : Session :=
      ⟨id, userId, userAgent, clientIp, generateSessionToken bytes, [], none, k.now, k.now, k.now,
        none⟩
    have hcreate : svc.create k id bytes userId userAgent clientIp
        (ss.map (Session.row svc.sha256)) =
          (Table.create (ss.map (Session.row svc.sha256)) (s.row svc.sha256)).map
            fun r => (⟨generateSessionToken bytes, r.1⟩, r.2) := rfl
    rw [create_rows hsha hk (hfresh _ rfl)] at hcreate
    simp only [serve, hcreate, Session.step]
    by_cases hid : id ∈ ss.map (·.id)
    · rw [if_pos hid, if_pos hid]
      rfl
    · rw [if_neg hid, if_neg hid]
      rfl
  | rotate id bytes =>
    obtain ⟨session, hrotate⟩ := rotate_rows hsha hk k id (hfresh _ rfl)
    simp only [serve, hrotate]
  | markSeen id seen => exact map_rows (fun s _ => Iff.rfl) fun s => rfl
  | revoke id => exact map_rows (fun s _ => Iff.rfl) fun s => rfl
  | revokeAllForUser userId => exact map_rows (fun s _ => Iff.rfl) fun s => rfl
  | pruneExpired =>
    simp only [serve, SessionService.pruneExpired, Table.deleteExpired, Session.step,
      List.filter_map]
    rfl
  | lookupByToken rawToken => rfl

end Refinement

/-! ## Which tokens are accepted -/

def Session.Presents (tok : String) (s : Session) : Prop :=
  tok = s.current ∨ s.earlier.head? = some tok

/-- The token is the current one of the session, or the one before it within the grace period, and
the session is neither revoked nor too old nor idle. -/
structure Session.Accepts (svc : SessionService) (now : ℤ) (tok : String) (s : Session) :
    Prop where
  presents : tok = s.current ∨
    s.earlier.head? = some tok ∧ ((now - s.rotatedAt : ℤ) : ℚ) ≤ svc.rotationGraceMs
  standing : s.revokedAt = none
  young : ((now - s.createdAt : ℤ) : ℚ) ≤ svc.maxLifetimeMs
  active : ((now - s.touchedAt : ℤ) : ℚ) ≤ svc.idleTimeoutMs ∨ s.touchedAt ≤ 0

section Acceptance

variable {svc : SessionService} {ss : List Session} {drawn : List String} {now : ℤ}
  {tok : String} {s : Session}

theorem Session.Presents.mem (h : s.Presents tok) : tok ∈ s.tokens := by
  rcases h with rfl | h
  · exact List.mem_cons_self
  · exact List.mem_cons_of_mem _ (List.mem_of_mem_head? h)

instance (tok : String) : DecidablePred (Session.Presents tok) := fun s =>
  inferInstanceAs (Decidable (tok = s.current ∨ s.earlier.head? = some tok))

theorem hash_found_iff (hsha : Digest svc.sha256) :
    (s.row svc.sha256).authToken = svc.sha256 tok ∨
      (s.row svc.sha256).prevAuthToken = svc.sha256 tok ↔ s.Presents tok := by
  refine or_congr ⟨fun h => (hsha.injective h).symm, fun h => congrArg _ h.symm⟩ ?_
  cases hhead : s.earlier.head? with
  | none => simpa [Session.row, hhead] using Ne.symm (hsha.ne_empty tok)
  | some prev =>
    simp only [Session.row, hhead, Option.map_some, Option.getD_some, Option.some.injEq]
    exact hsha.injective.eq_iff

theorem findByHashedToken_rows (hsha : Digest svc.sha256) (hk : WellKept drawn now ss)
    {r : UserAuthToken} :
    Table.findByHashedToken (ss.map (Session.row svc.sha256)) (svc.sha256 tok) = some r ↔
      ∃ s ∈ ss, s.revokedAt = none ∧ s.Presents tok ∧ r = s.row svc.sha256 := by
  have hfind : Table.findByHashedToken (ss.map (Session.row svc.sha256)) (svc.sha256 tok) =
      (ss.find? fun s => s.revokedAt = none ∧ s.Presents tok).map (Session.row svc.sha256) := by
    rw [Table.findByHashedToken, List.find?_map]
    congr 2
    funext s
    simp only [Function.comp_apply, hash_found_iff hsha]
    rfl
  rw [hfind, Option.map_eq_some_iff]
  constructor
  · rintro ⟨s, hs, rfl⟩
    have hprop : s.revokedAt = none ∧ s.Presents tok := by simpa using List.find?_some hs
    exact ⟨s, List.mem_of_find?_eq_some hs, hprop.1, hprop.2, rfl⟩
  · rintro ⟨s, hs, hstanding, hpresents, rfl⟩
    -- whichever session is found first shares the token with `s`
    have hsome : (ss.find? fun s => s.revokedAt = none ∧ s.Presents tok).isSome := by
      rw [List.find?_isSome]
      exact ⟨s, hs, decide_eq_true ⟨hstanding, hpresents⟩⟩
    obtain ⟨s', hs'⟩ := Option.isSome_iff_exists.mp hsome
    have hprop : s'.revokedAt = none ∧ s'.Presents tok := by simpa using List.find?_some hs'
    have heq := hk.eq_of_token (List.mem_of_find?_eq_some hs') hs hprop.2.mem hpresents.mem
    exact ⟨s', hs', by rw [heq]⟩

theorem validate_iff (hsha : Digest svc.sha256) (hk : WellKept drawn now ss) (hs : s ∈ ss)
    (hstanding : s.revokedAt = none) (hpresents : s.Presents tok) :
    (svc.validate now (svc.sha256 tok) (s.row svc.sha256)).isSome ↔ s.Accepts svc now tok := by
  obtain ⟨hcreated, hrotated, -⟩ := hk.dates s hs
  have htouched : max s.touchedAt (max s.rotatedAt s.createdAt) = s.touchedAt := by omega
  have hprev : (s.row svc.sha256).prevAuthToken ≠ "" ∧
      (s.row svc.sha256).prevAuthToken = svc.sha256 tok ↔ s.earlier.head? = some tok := by
    cases hhead : s.earlier.head? with
    | none => simp [Session.row, hhead]
    | some prev =>
      simp only [Session.row, hhead, Option.map_some, Option.getD_some, Option.some.injEq]
      exact ⟨fun h => hsha.injective h.2, fun h => ⟨hsha.ne_empty _, congrArg _ h⟩⟩
  -- the current token is none of the earlier ones
  have hcurrent : tok = s.current → s.earlier.head? ≠ some tok := by
    rintro rfl hhead
    exact (List.nodup_cons.mp (hk.nodup s hs)).1 (List.mem_of_mem_head? hhead)
  simp only [SessionService.validate, ← and_assoc, hprev]
  simp only [Session.row, hstanding, htouched]
  constructor
  · intro h
    split at h
    · cases h
    split at h
    · cases h
    split at h
    · cases h
    split at h
    · cases h
    rename_i _ hyoung hidle hgrace
    refine ⟨?_, hstanding, not_lt.mp hyoung, ?_⟩
    · exact hpresents.imp_right fun hhead => ⟨hhead, not_lt.mp fun hlate => hgrace ⟨hhead, hlate⟩⟩
    · by_cases hpos : 0 < s.touchedAt
      · exact Or.inl (not_lt.mp fun hlate => hidle ⟨hpos, hlate⟩)
      · exact Or.inr (not_lt.mp hpos)
  · intro h
    rw [if_neg (by simp), if_neg (not_lt.mpr h.young), if_neg, if_neg]
    · rfl
    · rintro ⟨hhead, hlate⟩
      rcases h.presents with hcur | ⟨-, hgrace⟩
      · exact hcurrent hcur hhead
      · exact absurd hlate (not_lt.mpr hgrace)
    · rintro ⟨hpos, hlate⟩
      rcases h.active with hactive | hepoch
      · exact absurd hlate (not_lt.mpr hactive)
      · omega

theorem validate_eq {hashed : String} {row r : UserAuthToken}
    (h : svc.validate now hashed row = some r) : r = row := by
  simp only [SessionService.validate] at h
  split at h
  · cases h
  split at h
  · cases h
  split at h
  · cases h
  split at h
  · cases h
  · exact (Option.some.inj h).symm

theorem lookupByToken_rows (hsha : Digest svc.sha256) (hk : WellKept drawn now ss)
    (hdrawn : ∀ t ∈ drawn, t ≠ "") {r : UserAuthToken} :
    svc.lookupByToken now tok (ss.map (Session.row svc.sha256)) = some r ↔
      ∃ s ∈ ss, s.Accepts svc now tok ∧ r = s.row svc.sha256 := by
  have hpresents : ∀ s : Session, s.Accepts svc now tok → s.Presents tok :=
    fun s h => h.presents.imp_right (·.1)
  unfold SessionService.lookupByToken
  split
  · rename_i hempty
    refine iff_of_false (by simp) ?_
    rintro ⟨s, hs, haccepts, -⟩
    exact hdrawn tok (hk.drawn s hs tok (hpresents s haccepts).mem) hempty
  · rw [Option.bind_eq_some_iff]
    constructor
    · rintro ⟨row, hfind, hvalid⟩
      obtain ⟨s, hs, hstanding, hpres, rfl⟩ := (findByHashedToken_rows hsha hk).mp hfind
      have hsome := Option.isSome_of_eq_some hvalid
      exact ⟨s, hs, (validate_iff hsha hk hs hstanding hpres).mp hsome, validate_eq hvalid⟩
    · rintro ⟨s, hs, haccepts, rfl⟩
      have hpres := hpresents s haccepts
      obtain ⟨r, hr⟩ := Option.isSome_iff_exists.mp
        ((validate_iff hsha hk hs haccepts.standing hpres).mpr haccepts)
      refine ⟨_, (findByHashedToken_rows hsha hk).mpr ⟨s, hs, haccepts.standing, hpres, rfl⟩, ?_⟩
      rw [SessionService.hashSessionToken, hr, validate_eq hr]

end Acceptance

/-! ## Over all calls -/

section Histories

variable {svc : SessionService} {ss : List Session} {drawn : List String} {now : ℤ} {tok : String}

theorem sessionsAfter_snoc (calls : List Served) (c : Served) :
    sessionsAfter svc (calls ++ [c]) = Session.step svc c.clock (sessionsAfter svc calls) c.call := by
  unfold sessionsAfter
  rw [List.foldl_append]
  rfl

theorem tokensDrawn_snoc (calls : List Served) (c : Served) :
    tokensDrawn (calls ++ [c]) = tokensDrawn calls ++ c.call.token.toList := by
  unfold tokensDrawn
  rw [List.filterMap_append]
  cases h : c.call.token <;> simp [h]

theorem readings_snoc (calls : List Served) (c : Served) :
    readings (calls ++ [c]) = readings calls ++ [c.clock.now, c.clock.nowIso] := by
  simp [readings]

theorem token_ne_empty {call : Call} (h : call.token = some tok) : tok ≠ "" := by
  have hprefix : ∀ bytes, generateSessionToken bytes ≠ "" := by
    intro bytes hempty
    have hlen := congrArg String.length hempty
    rw [generateSessionToken, String.length_append] at hlen
    exact absurd hlen (by simp [SESSION_TOKEN_PREFIX])
  cases call <;> cases h <;> exact hprefix _

theorem tokensDrawn_ne_empty (calls : List Served) : ∀ t ∈ tokensDrawn calls, t ≠ "" := by
  intro t ht
  obtain ⟨c, -, hc⟩ := List.mem_filterMap.mp ht
  exact token_ne_empty hc

theorem tableAfter_eq (hsha : Function.Injective svc.sha256) (calls : List Served)
    (hfresh : (tokensDrawn calls).Nodup) (hclock : (readings calls).Pairwise (· ≤ ·)) :
    (∀ now, (∀ t ∈ readings calls, t ≤ now) →
      WellKept (tokensDrawn calls) now (sessionsAfter svc calls)) ∧
    tableAfter svc calls = (sessionsAfter svc calls).map (Session.row svc.sha256) := by
  induction calls using List.reverseRecOn with
  | nil =>
    refine ⟨fun now _ => ⟨List.Pairwise.nil, ?_, ?_, ?_⟩, rfl⟩ <;> exact fun s hs => by cases hs
  | append_singleton calls c ih =>
    rw [tokensDrawn_snoc, List.nodup_append] at hfresh
    rw [readings_snoc, List.pairwise_append] at hclock
    obtain ⟨hbefore, hlast, hle⟩ := hclock
    obtain ⟨hkept, htable⟩ := ih hfresh.1 hbefore
    have hnow := hkept c.clock.now fun t ht => hle t ht _ List.mem_cons_self
    have hiso : c.clock.now ≤ c.clock.nowIso := by simpa using hlast
    have hdrawn : ∀ t, c.call.token = some t → t ∉ tokensDrawn calls := by
      intro t ht hmem
      exact hfresh.2.2 t hmem t (by simp [ht]) rfl
    rw [tokensDrawn_snoc, sessionsAfter_snoc, readings_snoc]
    refine ⟨fun now hpast => ?_, ?_⟩
    · have hstep : WellKept (tokensDrawn calls ++ c.call.token.toList) c.clock.nowIso
          (Session.step svc c.clock (sessionsAfter svc calls) c.call) :=
        hnow.step c.call le_rfl hiso hdrawn
      simpa using hstep.later [] (hpast c.clock.nowIso (by simp))
    · rw [← serve_rows hsha hnow c.call hdrawn, ← htable]
      simp [tableAfter]

def Dead (tok : String) (ss : List Session) : Prop :=
  ∀ s ∈ ss, tok ∈ s.tokens → s.revokedAt ≠ none ∨ ¬ s.Presents tok

theorem dead_of_outdated (hk : WellKept drawn now ss) {s : Session} (hs : s ∈ ss)
    (h : tok ∈ s.earlier.tail ∨ s.revokedAt ≠ none ∧ tok ∈ s.tokens) : Dead tok ss := by
  have hmem : tok ∈ s.tokens := by
    rcases h with h | h
    · exact List.mem_cons_of_mem _ (List.mem_of_mem_tail h)
    · exact h.2
  intro s' hs' hmem'
  obtain rfl := hk.eq_of_token hs hs' hmem hmem'
  rcases h with htail | ⟨hrevoked, -⟩
  · refine Or.inr fun hpresents => ?_
    have hnodup := hk.nodup s hs
    cases hearlier : s.earlier with
    | nil =>
      rw [hearlier] at htail
      cases htail
    | cons prev rest =>
      rw [Session.tokens, hearlier] at hnodup
      rw [hearlier, List.tail_cons] at htail
      rcases hpresents with rfl | hhead
      · exact (List.nodup_cons.mp hnodup).1 (List.mem_cons_of_mem _ htail)
      · rw [hearlier, List.head?_cons, Option.some.injEq] at hhead
        subst hhead
        exact (List.nodup_cons.mp (List.nodup_cons.mp hnodup).2).1 htail
  · exact Or.inl hrevoked

theorem dead_map {g : Session → Session} (h : Dead tok ss)
    (hg : ∀ s ∈ ss, (g s).tokens = s.tokens ∧ (s.revokedAt ≠ none → (g s).revokedAt ≠ none) ∨
      s.revokedAt = none ∧ ∃ t, t ≠ tok ∧ g s = { g s with current := t, earlier := s.tokens }) :
    Dead tok (ss.map g) := by
  intro s' hs' hmem
  obtain ⟨s, hs, rfl⟩ := List.mem_map.mp hs'
  rcases hg s hs with ⟨htokens, hrevoked⟩ | ⟨hstanding, t, hne, heq⟩
  · obtain ⟨hcurrent, hearlier⟩ := List.cons_eq_cons.mp htokens
    rw [htokens] at hmem
    refine (h s hs hmem).imp hrevoked fun hp hp' => hp ?_
    simpa [Session.Presents, hcurrent, hearlier] using hp'
  · have hcurrent : (g s).current = t := congrArg Session.current heq
    have hearlier : (g s).earlier = s.tokens := congrArg Session.earlier heq
    rw [Session.tokens, hcurrent, hearlier] at hmem
    rcases List.mem_cons.mp hmem with rfl | hmem
    · exact absurd rfl hne
    · -- a token that was not the current one is not the one before it now
      have hold := (h s hs hmem).resolve_left fun hr => hr hstanding
      refine Or.inr ?_
      rintro (hcur | hhead)
      · exact hne (hcurrent.symm.trans hcur.symm)
      · rw [hearlier, Session.tokens, List.head?_cons, Option.some.injEq] at hhead
        exact hold (Or.inl hhead.symm)

theorem dead_step {k : Clock} (h : Dead tok ss) (call : Call) (hne : call.token ≠ some tok) :
    Dead tok (Session.step svc k ss call) := by
  cases call with
  | create id bytes userId userAgent clientIp =>
    simp only [Session.step]
    split
    · exact h
    · intro s hs hmem
      rcases List.mem_append.mp hs with hs | hs
      · exact h s hs hmem
      · rw [List.mem_singleton] at hs
        subst hs
        exact absurd (congrArg some (List.mem_singleton.mp hmem).symm) hne
  | rotate id bytes =>
    refine dead_map h fun s _ => ?_
    split
    · rename_i hrow
      exact Or.inr ⟨hrow.2, _, fun heq => hne (congrArg some heq), rfl⟩
    · exact Or.inl ⟨rfl, fun hr => hr⟩
  | markSeen id seen =>
    refine dead_map h fun s _ => Or.inl ?_
    split <;> exact ⟨rfl, fun hr => hr⟩
  | revoke id =>
    refine dead_map h fun s _ => Or.inl ?_
    split <;> exact ⟨rfl, fun hr => by simp [Session.revoke, hr]⟩
  | revokeAllForUser userId =>
    refine dead_map h fun s _ => Or.inl ?_
    split <;> exact ⟨rfl, fun hr => by simp [Session.revoke, hr]⟩
  | pruneExpired => exact fun s hs => h s (List.mem_of_mem_filter hs)
  | lookupByToken rawToken => exact h

theorem dead_after {before : List Served} (after : List Served)
    (hfresh : (tokensDrawn (before ++ after)).Nodup) (hmem : tok ∈ tokensDrawn before)
    (h : Dead tok (sessionsAfter svc before)) : Dead tok (sessionsAfter svc (before ++ after)) := by
  induction after using List.reverseRecOn with
  | nil => rwa [List.append_nil]
  | append_singleton after c ih =>
    rw [← List.append_assoc, tokensDrawn_snoc, List.nodup_append] at hfresh
    rw [← List.append_assoc, sessionsAfter_snoc]
    refine dead_step (ih hfresh.1) c.call fun hdraw => ?_
    refine hfresh.2.2 tok ?_ tok (by simp [hdraw]) rfl
    rw [tokensDrawn, List.filterMap_append]
    exact List.mem_append_left _ hmem

/-- **The session law.** After any calls a token is accepted if and only if it is the current
one of a session, or the one before it within the grace period, and the session is neither
revoked nor pruned nor too old nor idle; the answer is the row of that session. A token two
rotations old or of a revoked session is never accepted again. -/
theorem session_acceptance (svc : SessionService) (hsha : Digest svc.sha256) (calls : List Served)
    (hfresh : (tokensDrawn calls).Nodup) (hclock : (readings calls).Pairwise (· ≤ ·)) :
    (∀ (tok : String) (now : ℤ) (r : UserAuthToken), (∀ t ∈ readings calls, t ≤ now) →
      (svc.lookupByToken now tok (tableAfter svc calls) = some r ↔
        ∃ s ∈ sessionsAfter svc calls, s.Accepts svc now tok ∧ r = s.row svc.sha256)) ∧
    ∀ (before after : List Served) (tok : String) (now : ℤ), calls = before ++ after →
      (∃ s ∈ sessionsAfter svc before,
        tok ∈ s.earlier.tail ∨ s.revokedAt ≠ none ∧ tok ∈ s.tokens) →
      (∀ t ∈ readings calls, t ≤ now) →
      svc.lookupByToken now tok (tableAfter svc calls) = none := by
  obtain ⟨hkept, htable⟩ := tableAfter_eq hsha.injective calls hfresh hclock
  have hlookup : ∀ (tok : String) (now : ℤ) (r : UserAuthToken),
      (∀ t ∈ readings calls, t ≤ now) →
      (svc.lookupByToken now tok (tableAfter svc calls) = some r ↔
        ∃ s ∈ sessionsAfter svc calls, s.Accepts svc now tok ∧ r = s.row svc.sha256) := by
    intro tok now r hpast
    rw [htable]
    exact lookupByToken_rows hsha (hkept now hpast) (tokensDrawn_ne_empty calls)
  refine ⟨hlookup, ?_⟩
  rintro before after tok now rfl ⟨s, hs, hout⟩ hpast
  have hsplit : readings (before ++ after) = readings before ++ readings after := by
    simp [readings]
  have hdraws : tokensDrawn (before ++ after) = tokensDrawn before ++ tokensDrawn after := by
    simp [tokensDrawn]
  have hbefore : WellKept (tokensDrawn before) now (sessionsAfter svc before) := by
    rw [hdraws] at hfresh
    rw [hsplit] at hclock hpast
    refine (tableAfter_eq hsha.injective before (List.nodup_append.mp hfresh).1
      (List.pairwise_append.mp hclock).1).1 now fun t ht => ?_
    exact hpast t (List.mem_append_left _ ht)
  have hmem : tok ∈ s.tokens := by
    rcases hout with htail | ⟨-, hmem⟩
    · exact List.mem_cons_of_mem _ (List.mem_of_mem_tail htail)
    · exact hmem
  have hdead : Dead tok (sessionsAfter svc (before ++ after)) :=
    dead_after after hfresh (hbefore.drawn s hs tok hmem) (dead_of_outdated hbefore hs hout)
  rw [Option.eq_none_iff_forall_ne_some]
  intro r hr
  obtain ⟨s', hs', haccepts, -⟩ := (hlookup tok now r hpast).mp hr
  have hpresents : s'.Presents tok := haccepts.presents.imp_right (·.1)
  exact (hdead s' hs' hpresents.mem).elim (· haccepts.standing) (· hpresents)

end Histories

/-! ## At the epoch -/

def plainService : SessionService := { sha256 := fun s => "sha256:" ++ s }

theorem plainService_digest : Digest plainService.sha256 := by
  constructor
  · intro s t h
    have hlist := congrArg String.toList (show "sha256:" ++ s = "sha256:" ++ t from h)
    rw [String.toList_append, String.toList_append] at hlist
    exact String.toList_inj.mp (List.append_cancel_left hlist)
  · intro s h
    have hlen := congrArg String.length (show "sha256:" ++ s = "" from h)
    rw [String.length_append] at hlen
    exact absurd hlen (by simp)

/-- One session, created when the clock reads `t`. -/
def oneSession (t : ℤ) : List Served :=
  [⟨⟨t, t⟩, .create "s1" "AAAA" "u1" "Firefox" "10.0.0.1"⟩]

/-- A session of the first instant is accepted after eight days without a request, a day after
the idle timeout: a touch at the epoch counts as none. -/
theorem idle_at_epoch :
    ¬ ∀ (svc : SessionService) (calls : List Served) (tok : String) (now : ℤ) (r : UserAuthToken),
      Digest svc.sha256 → (tokensDrawn calls).Nodup → (readings calls).Pairwise (· ≤ ·) →
      (∀ t ∈ readings calls, t ≤ now) →
      (svc.lookupByToken now tok (tableAfter svc calls) = some r ↔
        ∃ s ∈ sessionsAfter svc calls,
          (tok = s.current ∨ s.earlier.head? = some tok ∧
            ((now - s.rotatedAt : ℤ) : ℚ) ≤ svc.rotationGraceMs) ∧
          s.revokedAt = none ∧ ((now - s.createdAt : ℤ) : ℚ) ≤ svc.maxLifetimeMs ∧
          ((now - s.touchedAt : ℤ) : ℚ) ≤ svc.idleTimeoutMs ∧ r = s.row svc.sha256) := by
  intro hlaw
  have hfound : (plainService.lookupByToken 691200000 "openobs_s_AAAA"
      (tableAfter plainService (oneSession 0))).isSome := by decide +kernel
  obtain ⟨r, hr⟩ := Option.isSome_iff_exists.mp hfound
  obtain ⟨s, hs, -, -, -, hidle, -⟩ := (hlaw plainService (oneSession 0) "openobs_s_AAAA" 691200000 r
    plainService_digest (by decide) (by decide) (by decide)).mp hr
  obtain rfl := List.mem_singleton.mp hs
  exact absurd hidle (by decide +kernel)

/-- The same session, created later, is accepted within the week. -/
theorem session_acceptance_active :
    ∃ r, plainService.lookupByToken 600000 "openobs_s_AAAA"
      (tableAfter plainService (oneSession 1000)) = some r ∧ r.userId = "u1" := by
  have hlaw := session_acceptance plainService plainService_digest (oneSession 1000) (by decide)
    (by decide)
  refine ⟨_, (hlaw.1 "openobs_s_AAAA" 600000 _ (by decide)).mpr
    ⟨_, List.mem_singleton.mpr rfl, ⟨Or.inl (by decide), rfl, ?_, Or.inl ?_⟩, rfl⟩, rfl⟩
  · decide +kernel
  · decide +kernel

end OpenObs.Auth
