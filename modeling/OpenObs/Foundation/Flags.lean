import Mathlib.Data.List.Zip

/-!
# Reading a command line

A command-line grammar, as far as one tracked option goes, is a table that says what each token is:
an argument, a flag that stands alone, a flag whose value is the next token, the tracked option
(value in the next token or attached), or the marker after which everything is an argument.
-/

namespace OpenObs.Foundation.Flags

inductive Role : Type where
  | arg
  | inert                 -- a flag without a separate value
  | takesNext             -- a flag whose value is the next token
  | sets                  -- the tracked option, its value is the next token
  | setsTo (v : String)   -- the tracked option with its value attached
  | stop                  -- only arguments from here on
deriving DecidableEq

/-- The arguments, and the values given to the tracked option; `none` is the
option at the very end, with no token left for its value. -/
structure Reading where
  args : List String
  values : List (Option String)
deriving DecidableEq

namespace Reading

def empty : Reading := ⟨[], []⟩

def withArg (tok : String) (r : Reading) : Reading :=
  { r with args := tok :: r.args }

def withValue (v : Option String) (r : Reading) : Reading :=
  { r with values := v :: r.values }

@[simp] theorem args_withArg (tok : String) (r : Reading) :
    (r.withArg tok).args = tok :: r.args := rfl

@[simp] theorem values_withArg (tok : String) (r : Reading) :
    (r.withArg tok).values = r.values := rfl

@[simp] theorem args_withValue (v : Option String) (r : Reading) :
    (r.withValue v).args = r.args := rfl

@[simp] theorem values_withValue (v : Option String) (r : Reading) :
    (r.withValue v).values = v :: r.values := rfl

def last (r : Reading) : Option String := r.values.getLast?.join

end Reading

def read (role : String → Role) : List String → Reading
  | [] => .empty
  | tok :: rest =>
    match role tok with
    | .arg => (read role rest).withArg tok
    | .inert => read role rest
    | .takesNext =>
      match rest with
      | [] => .empty
      | _ :: rest' => read role rest'
    | .sets =>
      match rest with
      | [] => Reading.empty.withValue none
      | v :: rest' => (read role rest').withValue (some v)
    | .setsTo v => (read role rest).withValue (some v)
    | .stop => ⟨rest, []⟩

/-! ## One token at a time -/

section Cons

variable {role : String → Role} {tok v : String} {rest : List String}

theorem read_cons : read role (tok :: rest) =
    match role tok with
    | .arg => (read role rest).withArg tok
    | .inert => read role rest
    | .takesNext =>
      match rest with
      | [] => .empty
      | _ :: rest' => read role rest'
    | .sets =>
      match rest with
      | [] => Reading.empty.withValue none
      | v :: rest' => (read role rest').withValue (some v)
    | .setsTo v => (read role rest).withValue (some v)
    | .stop => ⟨rest, []⟩ := by
  rw [read.eq_def]

theorem read_arg (h : role tok = .arg) :
    read role (tok :: rest) = (read role rest).withArg tok := by
  rw [read_cons]
  simp [h]

theorem read_inert (h : role tok = .inert) :
    read role (tok :: rest) = read role rest := by
  rw [read_cons]
  simp [h]

theorem read_takesNext (h : role tok = .takesNext) :
    read role (tok :: v :: rest) = read role rest := by
  rw [read_cons]
  simp [h]

theorem read_takesNext_end (h : role tok = .takesNext) :
    read role [tok] = .empty := by
  rw [read_cons]
  simp [h]

theorem read_sets (h : role tok = .sets) :
    read role (tok :: v :: rest) = (read role rest).withValue (some v) := by
  rw [read_cons]
  simp [h]

theorem read_sets_end (h : role tok = .sets) :
    read role [tok] = Reading.empty.withValue none := by
  rw [read_cons]
  simp [h]

theorem read_setsTo (h : role tok = .setsTo v) :
    read role (tok :: rest) = (read role rest).withValue (some v) := by
  rw [read_cons]
  simp [h]

theorem read_stop (h : role tok = .stop) : read role (tok :: rest) = ⟨rest, []⟩ := by
  rw [read_cons]
  simp [h]

end Cons

/-! ## Without the tracked option -/

def Role.untracked : Role → Role
  | .sets => .takesNext
  | .setsTo _ => .inert
  | role => role

/-! ## Which tokens are arguments -/

def marks (role : String → Role) : List String → List Bool
  | [] => []
  | tok :: rest =>
    match role tok with
    | .arg => true :: marks role rest
    | .inert => false :: marks role rest
    | .setsTo _ => false :: marks role rest
    | .takesNext =>
      match rest with
      | [] => [false]
      | _ :: rest' => false :: false :: marks role rest'
    | .sets =>
      match rest with
      | [] => [false]
      | _ :: rest' => false :: false :: marks role rest'
    | .stop => false :: rest.map fun _ => true

theorem length_marks (role : String → Role) (argv : List String) :
    (marks role argv).length = argv.length := by
  fun_induction marks role argv <;> simp_all

theorem count_marks (role : String → Role) (argv : List String) :
    (marks role argv).count true = (read role argv).args.length := by
  fun_induction marks role argv with
  | case1 => rfl
  | case2 tok rest hrole ih => simp [read_arg hrole, ih]
  | case3 tok rest hrole ih => simp [read_inert hrole, ih]
  | case4 tok rest v hrole ih => simp [read_setsTo hrole, ih]
  | case5 tok hrole => simp [read_takesNext_end hrole, Reading.empty]
  | case6 tok hrole v rest' ih => simp [read_takesNext hrole, ih]
  | case7 tok hrole => simp [read_sets_end hrole, Reading.empty]
  | case8 tok hrole v rest' ih => simp [read_sets hrole, ih]
  | case9 tok rest hrole => simp [read_stop hrole]

def onlyFirst (ms ms' : List Bool) : ℕ := (ms.zip ms').countP fun m => m.1 && !m.2

theorem count_add_onlyFirst {ms ms' : List Bool} (h : ms.length = ms'.length) :
    ms.count true + onlyFirst ms' ms = ms'.count true + onlyFirst ms ms' := by
  induction ms generalizing ms' with
  | nil =>
    obtain rfl := List.length_eq_zero_iff.mp h.symm
    rfl
  | cons m ms ih =>
    cases ms' with
    | nil => cases h
    | cons m' ms' =>
      have hrest := ih (Nat.succ.inj h)
      simp only [onlyFirst] at hrest ⊢
      cases m <;> cases m' <;> simp <;> omega

def extraArgs (role role' : String → Role) (argv : List String) : ℕ :=
  onlyFirst (marks role argv) (marks role' argv)

/-- Two readings of a command line differ in their numbers of arguments by what each takes for
one and the other does not. -/
theorem args_length_add_extraArgs (role role' : String → Role) (argv : List String) :
    (read role argv).args.length + extraArgs role' role argv =
      (read role' argv).args.length + extraArgs role role' argv := by
  rw [← count_marks, ← count_marks]
  exact count_add_onlyFirst ((length_marks role argv).trans (length_marks role' argv).symm)

end OpenObs.Foundation.Flags
