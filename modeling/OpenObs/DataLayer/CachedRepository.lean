import OpenObs.Foundation.Pool

/-!
# A repository behind a cache

`cache/cached-repository.ts`. Between what a call does to the inner repository and what
it then does to the cache other calls may come. A row that is read is put in the cache
later, and by then it may be another one.
-/

namespace OpenObs.DataLayer

open OpenObs.Foundation

/-! ## The inner repository -/

/-- What an inner repository does to its rows; every operation is atomic, and one that throws
leaves them alone. -/
structure Repository (σ T Data Patch : Type) where
  idOf : T → String
  find : σ → String → Option T
  create : Data → σ → Except String T × σ
  update : String → Patch → σ → Except String (Option T) × σ
  delete : String → σ → Except String Bool × σ
  create_ok : ∀ data s e s', create data s = (.ok e, s') →
    find s' (idOf e) = some e ∧ ∀ id, id ≠ idOf e → find s' id = find s id
  create_error : ∀ data s err s', create data s = (.error err, s') → s' = s
  update_ok : ∀ id patch s found s', update id patch s = (.ok found, s') →
    find s' id = found ∧ ∀ id', id' ≠ id → find s' id' = find s id'
  update_error : ∀ id patch s err s', update id patch s = (.error err, s') → s' = s
  delete_ok : ∀ id s gone s', delete id s = (.ok gone, s') →
    find s' id = none ∧ ∀ id', id' ≠ id → find s' id' = find s id'
  delete_error : ∀ id s err s', delete id s = (.error err, s') → s' = s

structure Cached (σ T : Type) where
  rows : σ
  cache : String → Option T

namespace Cached

variable {σ T : Type}

def set (key : String) (value : T) : Prog (Cached σ T) Unit :=
  Prog.write fun s => { s with cache := Function.update s.cache key (some value) }

def del (key : String) : Prog (Cached σ T) Unit :=
  Prog.write fun s => { s with cache := Function.update s.cache key none }

def onRows {α : Type} (op : σ → Except String α × σ) : Prog (Cached σ T) α :=
  Prog.attempt fun s => ((op s.rows).1, { s with rows := (op s.rows).2 })

end Cached

/-! ## The wrapper -/

structure CachedRepository (σ T Data Patch : Type) where
  repo : Repository σ T Data Patch
  cacheKeyPrefix : String

namespace CachedRepository

variable {σ T Data Patch : Type} (o : CachedRepository σ T Data Patch)

def key (id : String) : String := o.cacheKeyPrefix ++ ":" ++ id

def findById (id : String) : Prog (Cached σ T) (Option T) := do
  let cached ← Prog.read (·.cache (o.key id))
  match cached with
  | some entity => pure (some entity)
  | none => do
      let entity ← Prog.read (o.repo.find ·.rows id)
      match entity with
      | none => pure none
      | some entity => do
          Cached.set (o.key id) entity
          pure (some entity)

def create (data : Data) : Prog (Cached σ T) T := do
  let entity ← Cached.onRows (o.repo.create data)
  Cached.set (o.key (o.repo.idOf entity)) entity
  pure entity

def update (id : String) (patch : Patch) : Prog (Cached σ T) (Option T) := do
  let entity ← Cached.onRows (o.repo.update id patch)
  match entity with
  | some entity => do
      Cached.set (o.key id) entity
      pure (some entity)
  | none => do
      Cached.del (o.key id)
      pure none

def delete (id : String) : Prog (Cached σ T) Bool := do
  let result ← Cached.onRows (o.repo.delete id)
  Cached.del (o.key id)
  pure result

end CachedRepository

inductive CacheCall (Data Patch : Type) : Type where
  | findById (id : String)
  | create (data : Data)
  | update (id : String) (patch : Patch)
  | delete (id : String)
  | expire (key : String)

inductive CacheReply (T : Type) : Type where
  | found (entity : Option T)
  | created (entity : T)
  | updated (entity : Option T)
  | deleted (result : Bool)
  | expired

def CacheCall.code {σ T Data Patch : Type} (o : CachedRepository σ T Data Patch) :
    CacheCall Data Patch → Prog (Cached σ T) (CacheReply T)
  | .findById id => do
      let entity ← o.findById id
      pure (.found entity)
  | .create data => do
      let entity ← o.create data
      pure (.created entity)
  | .update id patch => do
      let entity ← o.update id patch
      pure (.updated entity)
  | .delete id => do
      let result ← o.delete id
      pure (.deleted result)
  | .expire key => do
      Cached.del key
      pure .expired

/-! ## Where a call is -/

section Places

variable {σ T Data Patch : Type} (o : CachedRepository σ T Data Patch)

def fill (id : String) (entity : T) (reply : CacheReply T) : Prog (Cached σ T) (CacheReply T) := do
  Cached.set (o.key id) entity
  pure reply

def clear (id : String) (reply : CacheReply T) : Prog (Cached σ T) (CacheReply T) := do
  Cached.del (o.key id)
  pure reply

def fetch (id : String) : Prog (Cached σ T) (CacheReply T) := do
  let entity ← Prog.read (o.repo.find ·.rows id)
  match entity with
  | none => pure (.found none)
  | some entity => fill o id entity (.found (some entity))

inductive Place : Prog (Cached σ T) (CacheReply T) → Prop
  | begun (call : CacheCall Data Patch) : Place (call.code o)
  | fetch (id : String) : Place (fetch o id)
  | fill (id : String) (entity : T) (reply : CacheReply T) : Place (fill o id entity reply)
  | clear (id : String) (reply : CacheReply T) : Place (clear o id reply)
  | done {prog : Prog (Cached σ T) (CacheReply T)} (hdone : prog.finished = true) : Place prog

inductive Effect (s : Cached σ T) : Cached σ T → Prog (Cached σ T) (CacheReply T) → Prop
  | over {prog : Prog (Cached σ T) (CacheReply T)} (hdone : prog.finished = true) : Effect s s prog
  | missed (id : String) : Effect s s (fetch o id)
  | fetched (id : String) (entity : T) (reply : CacheReply T)
      (hrow : o.repo.find s.rows id = some entity) : Effect s s (fill o id entity reply)
  | stored (id : String) (entity : T) (reply : CacheReply T) {rows : σ}
      (hrow : o.repo.find rows id = some entity)
      (hother : ∀ id', id' ≠ id → o.repo.find rows id' = o.repo.find s.rows id') :
      Effect s { s with rows := rows } (fill o id entity reply)
  | gone (id : String) (reply : CacheReply T) {rows : σ} (hrow : o.repo.find rows id = none)
      (hother : ∀ id', id' ≠ id → o.repo.find rows id' = o.repo.find s.rows id') :
      Effect s { s with rows := rows } (clear o id reply)

variable {o} {s : Cached σ T} {f : Cached σ T → Cached σ T}
  {k : Cached σ T → Prog (Cached σ T) (CacheReply T)} {prog : Prog (Cached σ T) (CacheReply T)}

theorem fetch_section {id : String} (h : fetch o id = .sect f k) (s : Cached σ T) :
    f s = s ∧ Effect o s s (k s) := by
  cases h
  refine ⟨rfl, ?_⟩
  show Effect o s s (match o.repo.find s.rows id with
    | none => pure (.found none)
    | some entity => fill o id entity (.found (some entity)))
  cases hrow : o.repo.find s.rows id with
  | none => exact .over rfl
  | some entity => exact .fetched id entity _ hrow

theorem findById_section {id : String} (h : (CacheCall.findById id).code o = .sect f k)
    (s : Cached σ T) : f s = s ∧ k s = match s.cache (o.key id) with
      | some entity => pure (.found (some entity))
      | none => fetch o id := by
  cases h
  refine ⟨rfl, ?_⟩
  show (Prog.bind (match s.cache (o.key id) with
    | some entity => pure (some entity)
    | none => _) _) = _
  cases s.cache (o.key id) with
  | some entity => rfl
  | none =>
    refine congrArg (Prog.sect _) (funext fun s => ?_)
    show Prog.bind (match o.repo.find s.rows id with
      | none => pure none
      | some entity => _) _ = match o.repo.find s.rows id with
      | none => pure (.found none)
      | some entity => fill o id entity (.found (some entity))
    cases o.repo.find s.rows id <;> rfl

theorem create_section {data : Data} (h : (CacheCall.create data).code o = .sect f k)
    (s : Cached σ T) : f s = { s with rows := (o.repo.create data s.rows).2 } ∧
      k s = match (o.repo.create data s.rows).1 with
        | .ok entity => fill o (o.repo.idOf entity) entity (.created entity)
        | .error e => .fail e := by
  cases h
  refine ⟨rfl, ?_⟩
  dsimp only
  cases (o.repo.create data s.rows).1 <;> rfl

theorem update_section {id : String} {patch : Patch}
    (h : (CacheCall.update id patch).code o = .sect f k) (s : Cached σ T) :
    f s = { s with rows := (o.repo.update id patch s.rows).2 } ∧
      k s = match (o.repo.update id patch s.rows).1 with
        | .ok (some entity) => fill o id entity (.updated (some entity))
        | .ok none => clear o id (.updated none)
        | .error e => .fail e := by
  cases h
  refine ⟨rfl, ?_⟩
  dsimp only
  rcases (o.repo.update id patch s.rows).1 with err | ⟨⟩ | entity <;> rfl

theorem delete_section {id : String} (h : (CacheCall.delete id).code o = .sect f k)
    (s : Cached σ T) : f s = { s with rows := (o.repo.delete id s.rows).2 } ∧
      k s = match (o.repo.delete id s.rows).1 with
        | .ok result => clear o id (.deleted result)
        | .error e => .fail e := by
  cases h
  refine ⟨rfl, ?_⟩
  dsimp only
  cases (o.repo.delete id s.rows).1 <;> rfl

theorem begun_section {call : CacheCall Data Patch} (h : call.code o = .sect f k)
    (s : Cached σ T) : Effect o s (f s) (k s) ∨ ∃ key, call = .expire key := by
  cases call with
  | findById id =>
    refine Or.inl ?_
    obtain ⟨hf, hk⟩ := findById_section h s
    rw [hf, hk]
    split
    · exact .over rfl
    · exact .missed id
  | create data =>
    refine Or.inl ?_
    obtain ⟨hf, hk⟩ := create_section h s
    rw [hf, hk]
    rcases hop : o.repo.create data s.rows with ⟨err | entity, rows⟩
    · rw [o.repo.create_error _ _ _ _ hop]
      exact .over rfl
    · obtain ⟨hrow, hother⟩ := o.repo.create_ok _ _ _ _ hop
      exact .stored _ entity _ hrow hother
  | update id patch =>
    refine Or.inl ?_
    obtain ⟨hf, hk⟩ := update_section h s
    rw [hf, hk]
    rcases hop : o.repo.update id patch s.rows with ⟨err | entity, rows⟩
    · rw [o.repo.update_error _ _ _ _ _ hop]
      exact .over rfl
    · obtain ⟨hrow, hother⟩ := o.repo.update_ok _ _ _ _ _ hop
      cases entity with
      | none => exact .gone id _ hrow hother
      | some entity => exact .stored id entity _ hrow hother
  | delete id =>
    refine Or.inl ?_
    obtain ⟨hf, hk⟩ := delete_section h s
    rw [hf, hk]
    rcases hop : o.repo.delete id s.rows with ⟨err | result, rows⟩
    · rw [o.repo.delete_error _ _ _ _ hop]
      exact .over rfl
    · obtain ⟨hrow, hother⟩ := o.repo.delete_ok _ _ _ _ hop
      exact .gone id _ hrow hother
  | expire key => exact Or.inr ⟨key, rfl⟩

theorem fill_section {id : String} {entity : T} {reply : CacheReply T}
    (h : fill o id entity reply = .sect f k) (s : Cached σ T) :
    f s = { s with cache := Function.update s.cache (o.key id) (some entity) } ∧
      (k s).finished = true := by
  cases h
  exact ⟨rfl, rfl⟩

theorem clear_section {id : String} {reply : CacheReply T} (h : clear o id reply = .sect f k)
    (s : Cached σ T) :
    f s = { s with cache := Function.update s.cache (o.key id) none } ∧ (k s).finished = true := by
  cases h
  exact ⟨rfl, rfl⟩

theorem expire_section {key : String} (h : (CacheCall.expire key).code o = .sect f k)
    (s : Cached σ T) :
    f s = { s with cache := Function.update s.cache key none } ∧ (k s).finished = true := by
  cases h
  exact ⟨rfl, rfl⟩

theorem key_injective (o : CachedRepository σ T Data Patch) : Function.Injective o.key := by
  intro id id' h
  simpa [CachedRepository.key] using h

theorem ne_fill_of_section (h : prog = .sect f k) (rows : σ) {id : String} {entity : T}
    {reply : CacheReply T} (hf : (f ⟨rows, fun _ => none⟩).cache (o.key id) = none) :
    prog ≠ fill o id entity reply := by
  intro heq
  obtain ⟨hfill, -⟩ := fill_section (heq.symm.trans h) ⟨rows, fun _ => none⟩
  rw [hfill] at hf
  simp at hf

theorem Effect.cache {s' : Cached σ T} (h : Effect o s s' prog) : s'.cache = s.cache := by
  cases h <;> rfl

theorem code_ne_fill (rows : σ) (call : CacheCall Data Patch) {id : String} {entity : T}
    {reply : CacheReply T} : call.code o ≠ fill o id entity reply := by
  intro heq
  have hcode : call.code o = .sect _ _ := heq
  refine ne_fill_of_section hcode rows ?_ heq
  rcases begun_section hcode ⟨rows, fun _ => none⟩ with heffect | ⟨key, rfl⟩
  · rw [heffect.cache]
  · rw [(expire_section hcode _).1]
    simp

theorem fetch_ne_fill (rows : σ) {id id' : String} {entity : T} {reply : CacheReply T} :
    fetch o id' ≠ fill o id entity reply :=
  ne_fill_of_section rfl rows rfl

theorem clear_ne_fill (rows : σ) {id id' : String} {entity : T} {reply reply' : CacheReply T} :
    clear o id' reply' ≠ fill o id entity reply := by
  refine ne_fill_of_section rfl rows ?_
  simp

theorem finished_ne_fill (h : prog.finished = true) {id : String} {entity : T}
    {reply : CacheReply T} : prog ≠ fill o id entity reply := by
  rintro rfl
  cases h

theorem fill_inj {id id' : String} {entity entity' : T} {reply reply' : CacheReply T} (rows : σ)
    (h : fill o id entity reply = fill o id' entity' reply') : id = id' ∧ entity = entity' := by
  obtain ⟨hset, -⟩ := fill_section (f := fun s => { s with
    cache := Function.update s.cache (o.key id') (some entity') }) (k := fun _ => .ret reply') h
    ⟨rows, fun _ => none⟩
  have hentry := congrArg (fun s => s.cache (o.key id)) hset
  by_cases hid : id = id'
  · subst hid
    refine ⟨rfl, ?_⟩
    simpa using hentry.symm
  · have hkey : o.key id ≠ o.key id' := fun heq => hid (key_injective o heq)
    simp [Function.update_of_ne hkey] at hentry

end Places

/-! ## Coherence -/

def Clean {σ T Data Patch : Type} (o : CachedRepository σ T Data Patch) (id : String)
    (s : Cached σ T) : Prop :=
  ∀ entity, s.cache (o.key id) = some entity → o.repo.find s.rows id = some entity

def Pending {σ T Data Patch : Type} (o : CachedRepository σ T Data Patch) (id : String)
    (prog : Prog (Cached σ T) (CacheReply T)) : Prop :=
  (∃ entity reply, prog = fill o id entity reply) ∨ ∃ reply, prog = clear o id reply

def InTurn {σ T Data Patch : Type} (o : CachedRepository σ T Data Patch) (id : String)
    (c : Config (Cached σ T) (CacheCall Data Patch) (CacheReply T))
    (l : Label (CacheCall Data Patch)) : Prop :=
  ∀ c', c.next (CacheCall.code o) l = some c' →
    o.repo.find c'.st.rows id ≠ o.repo.find c.st.rows id →
    ∀ th ∈ c.threads, ∀ entity reply, th.prog ≠ fill o id entity reply

structure Mending {σ T Data Patch : Type} (o : CachedRepository σ T Data Patch) (id : String)
    (c : Config (Cached σ T) (CacheCall Data Patch) (CacheReply T)) : Prop where
  placed : ∀ th ∈ c.threads, Place o th.prog
  held : ∀ th ∈ c.threads, ∀ entity reply, th.prog = fill o id entity reply →
    o.repo.find c.st.rows id = some entity
  mended : Clean o id c.st ∨ ∃ th ∈ c.threads, Pending o id th.prog

section Pool

variable {σ T Data Patch : Type} {o : CachedRepository σ T Data Patch} {id : String}
  {c c' : Config (Cached σ T) (CacheCall Data Patch) (CacheReply T)} {s : Cached σ T}

theorem Mending.start (h : Mending o id c) {call : CacheCall Data Patch}
    (hn : c.next (CacheCall.code o) (.start call) = some c') : Mending o id c' := by
  obtain ⟨hst, hth⟩ := Config.next_start hn
  refine ⟨fun th hmem => ?_, fun th hmem entity reply hfill => ?_, ?_⟩
  · rcases Config.mem_of_next_start hn hmem with hmem | rfl
    · exact h.placed th hmem
    · exact .begun call
  · rw [hst]
    rcases Config.mem_of_next_start hn hmem with hmem | rfl
    · exact h.held th hmem entity reply hfill
    · exact absurd hfill (code_ne_fill c.st.rows call)
  · rw [hst]
    refine h.mended.imp_right fun ⟨th, hmem, hpending⟩ => ⟨th, ?_, hpending⟩
    rw [hth]
    exact List.mem_append_left _ hmem

theorem Mending.step_of (h : Mending o id c) {i : ℕ} (hok : InTurn o id c (.step i))
    (hn : c.next (CacheCall.code o) (.step i) = some c') {call : CacheCall Data Patch}
    {f : Cached σ T → Cached σ T} {k : Cached σ T → Prog (Cached σ T) (CacheReply T)}
    (hi : c.threads[i]? = some ⟨call, .sect f k⟩) (hplace : Place o (k c.st))
    (hheld : ∀ entity reply, k c.st = fill o id entity reply →
      o.repo.find c'.st.rows id = some entity)
    (hmended : Clean o id c'.st ∨ Pending o id (k c.st) ∨
      ¬ Pending o id (.sect f k) ∧ (Clean o id c.st → Clean o id c'.st)) : Mending o id c' := by
  obtain ⟨call', f', k', hi', -, hafter, hother⟩ := Config.next_step_threads hn
  cases hi'.symm.trans hi
  have hthreads : ∀ th ∈ c'.threads, th = ⟨call, k c.st⟩ ∨ th ∈ c.threads := fun th hmem =>
    (Config.mem_of_moved hafter hother hmem).imp_right fun ⟨_, _, hj⟩ => List.mem_of_getElem? hj
  refine ⟨fun th hmem => ?_, fun th hmem entity reply hfill => ?_, ?_⟩
  · rcases hthreads th hmem with rfl | hmem
    · exact hplace
    · exact h.placed th hmem
  · rcases hthreads th hmem with rfl | hmem
    · exact hheld entity reply hfill
    · by_cases hsame : o.repo.find c'.st.rows id = o.repo.find c.st.rows id
      · rw [hsame]
        exact h.held th hmem entity reply hfill
      · exact absurd hfill (hok c' hn hsame th hmem entity reply)
  · rcases hmended with hclean | hpending | ⟨hnot, hkeeps⟩
    · exact Or.inl hclean
    · exact Or.inr ⟨_, List.mem_of_getElem? hafter, hpending⟩
    · rcases h.mended with hclean | ⟨th, hmem, hpending⟩
      · exact Or.inl (hkeeps hclean)
      · -- who is about to mend it is not the one that has moved
        refine Or.inr ⟨th, Config.mem_of_unmoved hi hother hmem ?_, hpending⟩
        rintro rfl
        exact hnot hpending

theorem Clean.update_ne (h : Clean o id s) {key : String} {value : Option T}
    (hne : key ≠ o.key id) :
    Clean o id { s with cache := Function.update s.cache key value } := by
  intro entity hentry
  change Function.update s.cache key value (o.key id) = some entity at hentry
  rw [Function.update_of_ne (Ne.symm hne)] at hentry
  exact h entity hentry

theorem Clean.expire (h : Clean o id s) (key : String) :
    Clean o id { s with cache := Function.update s.cache key none } := by
  by_cases hkey : key = o.key id
  · subst hkey
    intro entity hentry
    simp at hentry
  · exact h.update_ne hkey

theorem Effect.accounts {s' : Cached σ T} {prog : Prog (Cached σ T) (CacheReply T)}
    (h : Effect o s s' prog) (id : String) : Place o prog ∧
      (∀ entity reply, prog = fill o id entity reply → o.repo.find s'.rows id = some entity) ∧
      (Pending o id prog ∨ (Clean o id s → Clean o id s')) := by
  have hsame : ∀ {rows : σ}, o.repo.find rows id = o.repo.find s.rows id → Clean o id s →
      Clean o id { s with rows := rows } := by
    intro rows hrow hclean entity hentry
    exact hrow.trans (hclean entity hentry)
  cases h with
  | «over» hdone =>
    exact ⟨.done hdone, fun _ _ hfill => absurd hfill (finished_ne_fill hdone),
      Or.inr fun h => h⟩
  | missed id' =>
    exact ⟨.fetch id', fun _ _ hfill => absurd hfill (fetch_ne_fill s.rows),
      Or.inr fun h => h⟩
  | fetched id' entity reply hrow =>
    refine ⟨.fill id' entity reply, fun entity' reply' hfill => ?_, Or.inr fun h => h⟩
    obtain ⟨rfl, rfl⟩ := fill_inj s.rows hfill
    exact hrow
  | stored id' entity reply hrow hother =>
    refine ⟨.fill id' entity reply, fun entity' reply' hfill => ?_, ?_⟩
    · obtain ⟨rfl, rfl⟩ := fill_inj s.rows hfill
      exact hrow
    · by_cases hid : id = id'
      · subst hid
        exact Or.inl (Or.inl ⟨entity, reply, rfl⟩)
      · exact Or.inr (hsame (hother id hid))
  | gone id' reply hrow hother =>
    refine ⟨.clear id' reply, fun entity' reply' hfill => absurd hfill (clear_ne_fill s.rows), ?_⟩
    by_cases hid : id = id'
    · subst hid
      exact Or.inl (Or.inr ⟨reply, rfl⟩)
    · exact Or.inr (hsame (hother id hid))

theorem Mending.step (h : Mending o id c) {i : ℕ} (hok : InTurn o id c (.step i))
    (hn : c.next (CacheCall.code o) (.step i) = some c') : Mending o id c' := by
  obtain ⟨call, f, k, hi, hst, -⟩ := Config.next_step hn
  have hmem := List.mem_of_getElem? hi
  have hover : (k c.st).finished = true → Place o (k c.st) ∧
      ∀ entity reply, k c.st = fill o id entity reply → o.repo.find c'.st.rows id = some entity :=
    fun hdone => ⟨.done hdone, fun entity reply hfill => absurd hfill (finished_ne_fill hdone)⟩
  by_cases hpending : Pending o id (.sect f k)
  · -- the entry is mended
    rcases hpending with ⟨entity, reply, hprog⟩ | ⟨reply, hprog⟩
    · obtain ⟨hf, hdone⟩ := fill_section hprog.symm c.st
      refine h.step_of hok hn hi (hover hdone).1 (hover hdone).2 (Or.inl ?_)
      intro entity' hentry
      rw [hst, hf] at hentry ⊢
      obtain rfl : entity = entity' := by simpa using hentry
      exact h.held _ hmem entity reply hprog
    · obtain ⟨hf, hdone⟩ := clear_section hprog.symm c.st
      refine h.step_of hok hn hi (hover hdone).1 (hover hdone).2 (Or.inl ?_)
      intro entity' hentry
      rw [hst, hf] at hentry
      simp at hentry
  · have heffect : Effect o c.st (f c.st) (k c.st) → Mending o id c' := by
      intro heffect
      rw [← hst] at heffect
      obtain ⟨hplace, hheld, hclean⟩ := heffect.accounts id
      refine h.step_of hok hn hi hplace hheld (Or.inr (hclean.imp_right fun hkeeps => ?_))
      exact ⟨hpending, hkeeps⟩
    generalize hprog : Prog.sect f k = prog at hpending
    have hplace := h.placed _ hmem
    change Place o (Prog.sect f k) at hplace
    rw [hprog] at hplace
    cases hplace with
    | begun call' =>
      rcases begun_section hprog.symm c.st with hcase | ⟨key, rfl⟩
      · exact heffect hcase
      · obtain ⟨hf, hdone⟩ := expire_section hprog.symm c.st
        refine h.step_of hok hn hi (hover hdone).1 (hover hdone).2 (Or.inr (Or.inr ⟨?_, ?_⟩))
        · rw [hprog]
          exact hpending
        · intro hclean
          rw [hst, hf]
          exact hclean.expire key
    | fetch id' =>
      obtain ⟨hf, hcase⟩ := fetch_section hprog.symm c.st
      rw [hf] at heffect
      exact heffect hcase
    | fill id' entity reply =>
      obtain ⟨hf, hdone⟩ := fill_section hprog.symm c.st
      refine h.step_of hok hn hi (hover hdone).1 (hover hdone).2 (Or.inr (Or.inr ⟨?_, ?_⟩))
      · rw [hprog]
        exact hpending
      · intro hclean
        rw [hst, hf]
        refine hclean.update_ne fun heq => hpending (Or.inl ?_)
        obtain rfl := key_injective o heq
        exact ⟨entity, reply, rfl⟩
    | clear id' reply =>
      obtain ⟨hf, hdone⟩ := clear_section hprog.symm c.st
      refine h.step_of hok hn hi (hover hdone).1 (hover hdone).2 (Or.inr (Or.inr ⟨?_, ?_⟩))
      · rw [hprog]
        exact hpending
      · intro hclean
        rw [hst, hf]
        exact hclean.expire _
    | done hdone =>
      rw [← hprog] at hdone
      cases hdone

theorem findById_of_clean (h : Clean o id s) :
    ((o.findById id).run s).1 = .ok (o.repo.find s.rows id) := by
  rw [CachedRepository.findById, Prog.run_bind, Prog.run_read]
  dsimp only
  cases hentry : s.cache (o.key id) with
  | some entity =>
    rw [h entity hentry]
    rfl
  | none =>
    dsimp only
    rw [Prog.run_bind, Prog.run_read]
    dsimp only
    cases o.repo.find s.rows id <;> rfl

/-- **Coherence.** Where a row only changes while no call holds it for the cache, the entry that is
left once all calls are through is the stored row, and a read returns it. -/
theorem cache_coherent (o : CachedRepository σ T Data Patch) (id : String) (s₀ : Cached σ T)
    (h₀ : Clean o id s₀) (c : Config (Cached σ T) (CacheCall Data Patch) (CacheReply T))
    (h : Run (CacheCall.code o) (InTurn o id) ⟨s₀, []⟩ c)
    (hthrough : ∀ th ∈ c.threads, th.prog.finished = true) :
    Clean o id c.st ∧ ((o.findById id).run c.st).1 = .ok (o.repo.find c.st.rows id) := by
  have hmending : Mending o id c := by
    clear hthrough
    induction h with
    | init =>
      refine ⟨fun th hmem => ?_, fun th hmem => ?_, Or.inl h₀⟩
      · cases hmem
      · cases hmem
    | tail l _ hok hn ih =>
      cases l with
      | start call => exact ih.start hn
      | step i => exact ih.step hok hn
  have hclean : Clean o id c.st := by
    rcases hmending.mended with hclean | ⟨th, hmem, ⟨entity, reply, hprog⟩ | ⟨reply, hprog⟩⟩
    · exact hclean
    · exact absurd hprog (finished_ne_fill (hthrough th hmem))
    · have hdone := hthrough th hmem
      rw [hprog] at hdone
      cases hdone
  exact ⟨hclean, findById_of_clean hclean⟩

end Pool

/-! ## A read and an update -/

structure Counter where
  id : String
  count : ℕ
deriving DecidableEq

def counters : Repository (String → Option Counter) Counter Counter ℕ where
  idOf row := row.id
  find rows id := rows id
  create row rows := (.ok row, Function.update rows row.id (some row))
  update id count rows :=
    (.ok ((rows id).map fun row => { row with count := count }),
      Function.update rows id ((rows id).map fun row => { row with count := count }))
  delete id rows := (.ok (rows id).isSome, Function.update rows id none)
  create_ok := by
    rintro row rows e s' ⟨⟩
    exact ⟨Function.update_self .., fun id hid => Function.update_of_ne hid ..⟩
  create_error := by rintro row rows err s' ⟨⟩
  update_ok := by
    rintro id count rows found s' ⟨⟩
    exact ⟨Function.update_self .., fun id hid => Function.update_of_ne hid ..⟩
  update_error := by rintro id count rows err s' ⟨⟩
  delete_ok := by
    rintro id rows gone s' ⟨⟩
    exact ⟨Function.update_self .., fun id hid => Function.update_of_ne hid ..⟩
  delete_error := by rintro id rows err s' ⟨⟩

def counterCache : CachedRepository (String → Option Counter) Counter Counter ℕ :=
  ⟨counters, "inv"⟩

def oneCounter : Cached (String → Option Counter) Counter :=
  ⟨fun id => if id = "a" then some ⟨"a", 0⟩ else none, fun _ => none⟩

theorem clean_oneCounter : Clean counterCache "a" oneCounter := by
  rintro entity ⟨⟩

/-- A read after an update has the new row. -/
theorem cache_coherent_in_turn : ∃ c,
    Run (CacheCall.code counterCache) (InTurn counterCache "a") ⟨oneCounter, []⟩ c ∧
      (Clean counterCache "a" c.st ∧
        ((counterCache.findById "a").run c.st).1 = .ok (counterCache.repo.find c.st.rows "a")) ∧
      c.st.cache "inv:a" = some ⟨"a", 1⟩ := by
  obtain ⟨c, hexec⟩ : ∃ c, Config.exec (CacheCall.code counterCache) ⟨oneCounter, []⟩
      [.start (.update "a" 1), .step 0, .step 0, .start (.findById "a"), .step 1] = some c :=
    ⟨_, rfl⟩
  have hrun : Run (CacheCall.code counterCache) (InTurn counterCache "a") ⟨oneCounter, []⟩ c := by
    refine Run.of_exec .init ?_ hexec
    refine ⟨?_, ?_⟩
    · rintro c' ⟨⟩ hne
      exact absurd rfl hne
    rintro c' ⟨⟩
    refine ⟨?_, ?_⟩
    · -- the row changes, and the update holds none
      rintro c' ⟨⟩ - th hmem entity reply
      rw [List.mem_singleton.mp hmem]
      show (CacheCall.update "a" 1).code counterCache ≠ fill counterCache "a" entity reply
      exact code_ne_fill oneCounter.rows (.update "a" 1)
    rintro c' ⟨⟩
    iterate 3
      refine ⟨?_, ?_⟩
      · rintro c' ⟨⟩ hne
        exact absurd rfl hne
      rintro c' ⟨⟩
    trivial
  have hthrough : ∀ th ∈ c.threads, th.prog.finished = true := by
    cases hexec
    rintro th (⟨⟩ | ⟨_, ⟨⟩ | ⟨_, ⟨⟩⟩⟩) <;> rfl
  refine ⟨c, hrun, cache_coherent counterCache "a" oneCounter clean_oneCounter c hrun hthrough, ?_⟩
  cases hexec
  decide

/-- A read that has fetched the old row stores it after the update. -/
theorem stale_row_cached :
    ¬ ∀ (o : CachedRepository (String → Option Counter) Counter Counter ℕ) (id : String)
        (s₀ : Cached (String → Option Counter) Counter), Clean o id s₀ →
      ∀ c, Run (CacheCall.code o) (fun _ _ => True) ⟨s₀, []⟩ c →
        (∀ th ∈ c.threads, th.prog.finished = true) → Clean o id c.st := by
  intro hall
  obtain ⟨c, hexec⟩ : ∃ c, Config.exec (CacheCall.code counterCache) ⟨oneCounter, []⟩
      [.start (.findById "a"), .start (.update "a" 1), .step 0, .step 0, .step 1, .step 1,
        .step 0] = some c := ⟨_, rfl⟩
  have hclean := hall counterCache "a" oneCounter clean_oneCounter c
    (.of_exec .init (allOk_of_forall (fun _ _ => trivial) _ _) hexec)
  cases hexec
  have hstale := hclean (by rintro th (⟨⟩ | ⟨_, ⟨⟩ | ⟨_, ⟨⟩⟩⟩) <;> rfl) ⟨"a", 0⟩ rfl
  exact absurd hstale (by decide)

end OpenObs.DataLayer
