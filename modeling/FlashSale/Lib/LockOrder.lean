/-
# Locks taken one at a time

Sessions run one transaction each. A statement that has begun takes the locks it
lacks one after another, waits for each that another session holds in a conflicting
mode, and runs when it lacks none; after every lock it looks at the rows again. Any
session can be aborted at any time.

* `Contention.WaitsFor.acyclic`: when every session wants only what comes after all that it
  holds, no cycle of sessions wait for one another.
* `Tx.Climbs` is an outline of a program that takes its locks in order, whatever the
  statements find; `Contention.run_acyclic` carries it through every run.
-/
import FlashSale.Lib.Transaction
import FlashSale.Lib.Run
import Mathlib.Logic.Relation

set_option linter.unusedSectionVars false

namespace Lib

/-! ### The system -/

/-- Sessions in the middle of their transactions: what each has written and locked,
where its program is, and the environment of the statement it has begun. -/
structure Contention (S Db Write T Env Stmt : Type) (Result : Stmt → Type) (Err ε α : Type) where
  db : Db
  pending : List (S × Write)
  locks : List (S × Lock T)
  progress : S → Progress Stmt Result Err ε α
  begun : S → Option Env

/-- A session steps, with what the statement that it begins depends on and the time
on its clock; or it is aborted. -/
inductive Turn (S Env ε : Type) where
  | go (n : S) (env : Env) (time : Int)
  | abort (n : S) (e : ε)

namespace Contention

variable {Stmt Env Err ε α S Db Write R T : Type} {Result : Stmt → Type}
  [Storage Write Db R] [DecidableEq S] [DecidableEq T]

/-- No transaction has begun. -/
def start (db : Db) (body : S → Tx Stmt Result Err ε α) :
    Contention S Db Write T Env Stmt Result Err ε α :=
  ⟨db, [], [], fun n => .running (body n), fun _ => none⟩

variable (plan : (s : Stmt) → Env → Db → Outcome Write T Err (Result s))
  (covers : Lock T → Lock T → Bool) (counts : T → Prop)

section State

variable (σ : Contention S Db Write T Env Stmt Result Err ε α) (n : S)

/-- What the statement of a session reads. -/
def view : Db :=
  applyAll σ.db (σ.pending.filterMap fun p => if p.1 = n then some p.2 else none)

/-- A lock that the session has no need to wait for, because of one that it holds. -/
def covered (l : Lock T) : Bool := σ.locks.any fun held => decide (held.1 = n) && covers held.2 l

/-- No other session holds a conflicting lock. -/
def grants (l : Lock T) : Bool :=
  σ.locks.all fun held => decide (held.1 = n) || held.2.compatible l

/-- The locks that a statement has yet to take, in their order. -/
def lacking (st : Stmt) (env : Env) : List (Lock T) :=
  (plan st env (σ.view n)).locks.filter fun l => !σ.covered covers n l

/-- The lock that a session takes next. -/
def wants : Option (Lock T) :=
  match σ.progress n, σ.begun n with
  | .running (.exec st _ _), some env => (σ.lacking plan covers n st env).head?
  | _, _ => none

/-- The session goes on with no statement begun. -/
def become (progress : Progress Stmt Result Err ε α) :
    Contention S Db Write T Env Stmt Result Err ε α :=
  { σ with
    progress := Function.update σ.progress n progress
    begun := Function.update σ.begun n none }

/-- The transaction of the session is over: its writes and its locks are gone. -/
def release : Contention S Db Write T Env Stmt Result Err ε α :=
  { σ with
    pending := σ.pending.filter fun p => decide (p.1 ≠ n)
    locks := σ.locks.filter fun p => decide (p.1 ≠ n) }

/-- A session runs the statement it has begun. -/
def execute (st : Stmt) (onError : Err → ε) (next : Result st → Tx Stmt Result Err ε α) (env : Env) :
    Contention S Db Write T Env Stmt Result Err ε α :=
  match (plan st env (σ.view n)).answer with
  | .error e => σ.become n (.running (.throw (onError e)))
  | .ok (ws, r) => { σ.become n (.running (next r)) with pending := σ.pending ++ ws.map (n, ·) }

/-- A session steps; `none` when it has ended or waits for a lock. -/
def advance (env : Env) (time : Int) : Option (Contention S Db Write T Env Stmt Result Err ε α) :=
  match σ.progress n with
  | .running (.pure a) => some { (σ.release n).become n (.returned a) with db := σ.view n }
  | .running (.throw e) => some ((σ.release n).become n (.threw e))
  | .running (.now next) => some (σ.become n (.running (next time)))
  | .running (.exec st onError next) =>
    match σ.begun n with
    | none => some { σ with begun := Function.update σ.begun n (some env) }
    | some env' =>
      match σ.lacking plan covers n st env' with
      | [] => some (σ.execute plan n st onError next env')
      | l :: _ => if σ.grants n l then some { σ with locks := σ.locks ++ [(n, l)] } else none
  | _ => none

def step : Turn S Env ε → Option (Contention S Db Write T Env Stmt Result Err ε α)
  | .go n env time => σ.advance plan covers n env time
  | .abort n e =>
    match σ.progress n with
    | .running _ => some ((σ.release n).become n (.threw e))
    | _ => none

/-- A session wants a lock on something that counts, and another holds a lock there
that conflicts with it. -/
def WaitsFor (m : S) : Prop :=
  n ≠ m ∧ ∃ l, σ.wants plan covers n = some l ∧ counts l.resource ∧
    ∃ held, (m, held) ∈ σ.locks ∧ held.compatible l = false

end State

variable {plan covers counts} {σ σ' : Contention S Db Write T Env Stmt Result Err ε α} {n m : S}

theorem covered_iff {l : Lock T} :
    σ.covered covers n l = true ↔ ∃ held, (n, held) ∈ σ.locks ∧ covers held l = true := by
  simp only [covered, List.any_eq_true, Bool.and_eq_true, decide_eq_true_eq]
  constructor
  · rintro ⟨⟨m, held⟩, mem, rfl, covers⟩
    exact ⟨held, mem, covers⟩
  · rintro ⟨held, mem, covers⟩
    exact ⟨(n, held), mem, rfl, covers⟩

theorem wants_cases {l : Lock T} (wants : σ.wants plan covers n = some l) :
    ∃ st onError next env, σ.progress n = .running (.exec st onError next) ∧
      σ.begun n = some env ∧ (σ.lacking plan covers n st env).head? = some l := by
  unfold Contention.wants at wants
  split at wants
  · exact ⟨_, _, _, _, by assumption, by assumption, wants⟩
  · cases wants

/-! ### Waiting in order -/

section Order

variable {before : T → T → Prop}

/-- A session that wants a lock which counts holds only locks that come before it,
of those that count. -/
def Ordered (plan : (s : Stmt) → Env → Db → Outcome Write T Err (Result s))
    (covers : Lock T → Lock T → Bool) (counts : T → Prop) (before : T → T → Prop)
    (σ : Contention S Db Write T Env Stmt Result Err ε α) (n : S) : Prop :=
  ∀ l, σ.wants plan covers n = some l → counts l.resource →
    ∀ held, (n, held) ∈ σ.locks → counts held.resource → before held.resource l.resource

/-- Conflicting locks are on one resource. -/
theorem resource_eq {a b : Lock T} (conflict : a.compatible b = false) :
    a.resource = b.resource := by
  simp only [Lock.compatible, Bool.or_eq_false_iff, decide_eq_false_iff_not, not_not] at conflict
  exact conflict.1

/-- Along a chain of waits, what is wanted comes ever later in the order. -/
theorem WaitsFor.chain (trans : ∀ a b c, before a b → before b c → before a c)
    (ordered : ∀ n, Ordered plan covers counts before σ n)
    (waits : Relation.TransGen (σ.WaitsFor plan covers counts) n m) :
    ∃ l, σ.wants plan covers n = some l ∧ counts l.resource ∧
      ∀ l', σ.wants plan covers m = some l' → counts l'.resource → before l.resource l'.resource := by
  have first : ∀ {n m : S}, σ.WaitsFor plan covers counts n m →
      ∃ l, σ.wants plan covers n = some l ∧ counts l.resource ∧
        ∀ l', σ.wants plan covers m = some l' → counts l'.resource →
          before l.resource l'.resource := by
    rintro n m ⟨-, l, wants, counted, held, mem, conflict⟩
    refine ⟨l, wants, counted, fun l' wants' counted' => ?_⟩
    have same := resource_eq conflict
    rw [← same] at counted ⊢
    exact ordered m l' wants' counted' held mem counted
  induction waits with
  | single waits => exact first waits
  | tail _ waits ih =>
    obtain ⟨l, wants, counted, later⟩ := ih
    obtain ⟨l₁, wants₁, counted₁, later₁⟩ := first waits
    refine ⟨l, wants, counted, fun l' wants' counted' => ?_⟩
    exact trans _ _ _ (later l₁ wants₁ counted₁) (later₁ l' wants' counted')

/-- Sessions that want only what comes after all that they hold do not wait in a cycle. -/
theorem WaitsFor.acyclic (irrefl : ∀ a, ¬ before a a)
    (trans : ∀ a b c, before a b → before b c → before a c)
    (ordered : ∀ n, Ordered plan covers counts before σ n) :
    ¬ Relation.TransGen (σ.WaitsFor plan covers counts) n n := by
  intro cycle
  obtain ⟨l, wants, counted, later⟩ := WaitsFor.chain trans ordered cycle
  exact irrefl _ (later l wants counted)

end Order

end Contention

/-! ### Outlines -/

section Outlines

variable {Stmt Env Err ε α β S Db Write R T : Type} {Result : Stmt → Type}
  [Storage Write Db R] [DecidableEq S] [DecidableEq T]

variable (covers : Lock T → Lock T → Bool) (counts : T → Prop) (before : T → T → Prop)

/-- The locks of a statement in the order in which it takes them, for a session that
holds `sure` and no more than `may`: each lock that counts is covered by one surely
held, or it comes after all that may be held and do not cover it. -/
def Ascends : List (Lock T) → List (Lock T) → List (Lock T) → Prop
  | _, _, [] => True
  | sure, may, l :: rest =>
    (counts l.resource → (∃ held ∈ sure, covers held l = true) ∨
      ∀ held ∈ may, counts held.resource → covers held l = true ∨ before held.resource l.resource) ∧
    Ascends (sure ++ [l]) (may ++ [l]) rest

/-- What an outline is about: the plans, the locks that a statement can take at most,
what all rows that are read are known to satisfy, and the results that are allowed. -/
structure Circumstances (Stmt Env Err Db Write T : Type) (Result : Stmt → Type) where
  plan : (s : Stmt) → Env → Db → Outcome Write T Err (Result s)
  full : Stmt → Env → List (Lock T)
  known : Db → Prop
  allowed : (s : Stmt) → Result s → Prop

variable (setting : Circumstances Stmt Env Err Db Write T Result)

/-- A program that takes its locks in order, from locks surely held and locks that may
be held. -/
def Tx.Climbs : Tx Stmt Result Err ε α → List (Lock T) → List (Lock T) → Prop
  | .pure _, _, _ => True
  | .throw _, _, _ => True
  | .now next, sure, may => ∀ time, (next time).Climbs sure may
  | .exec st _ next, sure, may => ∀ env,
    Ascends covers counts before sure may (setting.full st env) ∧
    ∀ db, setting.known db → (setting.plan st env db).locks <+: setting.full st env ∧
      ∀ ws r, (setting.plan st env db).answer = .ok (ws, r) → setting.allowed st r →
        (next r).Climbs (sure ++ (setting.plan st env db).locks) (may ++ setting.full st env)

variable {covers counts before setting} {sure may : List (Lock T)}

/-- A program followed by one that climbs from anywhere. -/
theorem Tx.Climbs.bind {body : Tx Stmt Result Err ε α} {k : α → Tx Stmt Result Err ε β}
    (first : body.Climbs covers counts before setting sure may)
    (rest : ∀ a sure may, (k a).Climbs covers counts before setting sure may) :
    (body >>= k).Climbs covers counts before setting sure may := by
  show (body.bind k).Climbs covers counts before setting sure may
  induction body generalizing sure may with
  | pure a => exact rest a sure may
  | throw e => exact first
  | now next ih =>
    intro time
    exact ih time (first time)
  | exec st onError next ih =>
    intro env
    obtain ⟨ascends, goes⟩ := first env
    refine ⟨ascends, fun db known => ?_⟩
    obtain ⟨upto, goesOn⟩ := goes db known
    exact ⟨upto, fun ws r answer allowed => ih r (goesOn ws r answer allowed)⟩

theorem Ascends.weaken {sure' may' ls : List (Lock T)}
    (ascends : Ascends covers counts before sure' may' ls) (fewer : ∀ l ∈ sure', l ∈ sure)
    (more : ∀ l ∈ may, l ∈ may') : Ascends covers counts before sure may ls := by
  induction ls generalizing sure may sure' may' with
  | nil => trivial
  | cons l rest ih =>
    refine ⟨fun counted => ?_, ih ascends.2 ?_ ?_⟩
    · rcases ascends.1 counted with ⟨held, mem, by_⟩ | after
      · exact Or.inl ⟨held, fewer held mem, by_⟩
      · exact Or.inr fun held mem => after held (more held mem)
    · intro a mem
      exact List.mem_append.mpr ((List.mem_append.mp mem).imp_left (fewer a))
    · intro a mem
      exact List.mem_append.mpr ((List.mem_append.mp mem).imp_left (more a))

/-- A program climbs from more locks surely held and fewer that may be held. -/
theorem Tx.Climbs.weaken {body : Tx Stmt Result Err ε α} {sure' may' : List (Lock T)}
    (climbs : body.Climbs covers counts before setting sure' may') (fewer : ∀ l ∈ sure', l ∈ sure)
    (more : ∀ l ∈ may, l ∈ may') : body.Climbs covers counts before setting sure may := by
  induction body generalizing sure may sure' may' with
  | pure a => trivial
  | throw e => trivial
  | now next ih =>
    intro time
    exact ih time (climbs time) fewer more
  | exec st onError next ih =>
    intro env
    obtain ⟨ascends, goes⟩ := climbs env
    refine ⟨ascends.weaken fewer more, fun db known => ?_⟩
    obtain ⟨upto, goesOn⟩ := goes db known
    refine ⟨upto, fun ws r answer allowed => ih r (goesOn ws r answer allowed) ?_ ?_⟩
    · intro a mem
      exact List.mem_append.mpr ((List.mem_append.mp mem).imp_left (fewer a))
    · intro a mem
      exact List.mem_append.mpr ((List.mem_append.mp mem).imp_left (more a))

/-- A lock of a statement, once those before it have been taken. -/
theorem Ascends.at {taken rest : List (Lock T)} {l : Lock T}
    (ascends : Ascends covers counts before sure may (taken ++ l :: rest))
    (counted : counts l.resource) :
    (∃ held ∈ sure ++ taken, covers held l = true) ∨
      ∀ held ∈ may ++ taken, counts held.resource →
        covers held l = true ∨ before held.resource l.resource := by
  induction taken generalizing sure may with
  | nil => simpa using ascends.1 counted
  | cons first taken ih => simpa using ih ascends.2

end Outlines

/-! ### Runs of outlined programs -/

namespace Contention

variable {Stmt Env Err ε α S Db Write R T : Type} {Result : Stmt → Type}
  [Storage Write Db R] [DecidableEq S] [DecidableEq T]

/-- A session in the middle of a climb: `taken` is what the statement that it has begun
has taken, or found covered, so far. -/
structure Climbing (covers : Lock T → Lock T → Bool) (counts : T → Prop) (before : T → T → Prop)
    (setting : Circumstances Stmt Env Err Db Write T Result)
    (σ : Contention S Db Write T Env Stmt Result Err ε α) (n : S) (body : Tx Stmt Result Err ε α)
    (sure may taken : List (Lock T)) : Prop where
  climbs : body.Climbs covers counts before setting sure may
  surely : ∀ l ∈ sure, σ.covered covers n l = true
  sofar : ∀ l ∈ taken, σ.covered covers n l = true
  held : ∀ l, (n, l) ∈ σ.locks → l ∈ may ∨ l ∈ taken
  unbegun : σ.begun n = none → taken = []
  upto : ∀ env, σ.begun n = some env →
    ∃ st onError next, body = .exec st onError next ∧ taken <+: setting.full st env

/-- Every running session is in the middle of a climb: what it holds comes before all that it
may still want. -/
structure Climbed (covers : Lock T → Lock T → Bool) (counts : T → Prop) (before : T → T → Prop)
    (setting : Circumstances Stmt Env Err Db Write T Result)
    (σ : Contention S Db Write T Env Stmt Result Err ε α) : Prop where
  known : setting.known σ.db
  climbing : ∀ n body, σ.progress n = .running body →
    ∃ sure may taken, Climbing covers counts before setting σ n body sure may taken

/-- The statement that a session runs in this turn returns an allowed result. -/
def Allowed (setting : Circumstances Stmt Env Err Db Write T Result)
    (σ : Contention S Db Write T Env Stmt Result Err ε α) : Turn S Env ε → Prop
  | .go n _ _ => ∀ st onError next env ws r, σ.progress n = .running (.exec st onError next) →
    σ.begun n = some env → (setting.plan st env (σ.view n)).answer = .ok (ws, r) →
      setting.allowed st r
  | .abort _ _ => True

section Climbing

variable {covers : Lock T → Lock T → Bool} {counts : T → Prop} {before : T → T → Prop}
  {setting : Circumstances Stmt Env Err Db Write T Result}
  {σ σ' : Contention S Db Write T Env Stmt Result Err ε α} {n m : S} {body : Tx Stmt Result Err ε α}
  {sure may taken : List (Lock T)}

/-- A session whose locks stay and whose statement stays. -/
theorem Climbing.frame (climbing : Climbing covers counts before setting σ n body sure may taken)
    (locks : ∀ l, (n, l) ∈ σ'.locks ↔ (n, l) ∈ σ.locks) (begun : σ'.begun n = σ.begun n) :
    Climbing covers counts before setting σ' n body sure may taken := by
  have kept : ∀ l, σ.covered covers n l = true → σ'.covered covers n l = true := by
    intro l is
    obtain ⟨held, mem, by_⟩ := covered_iff.mp is
    exact covered_iff.mpr ⟨held, (locks held).mpr mem, by_⟩
  obtain ⟨climbs, surely, sofar, held, unbegun, upto⟩ := climbing
  constructor
  · exact climbs
  · intro l mem
    exact kept l (surely l mem)
  · intro l mem
    exact kept l (sofar l mem)
  · intro l mem
    exact held l ((locks l).mp mem)
  · intro none
    exact unbegun (begun ▸ none)
  · intro env some
    exact upto env (begun ▸ some)

/-- Where the next lock stands among the locks of its statement: after all that have
been taken. -/
theorem Climbing.next (climbing : Climbing covers counts before setting σ n body sure may taken)
    (known : setting.known (σ.view n)) {st : Stmt} {onError : Err → ε}
    {next : Result st → Tx Stmt Result Err ε α} {env : Env} {l : Lock T} (is : body = .exec st onError next)
    (begun : σ.begun n = some env)
    (head : (σ.lacking setting.plan covers n st env).head? = some l) :
    ∃ earlier later, setting.full st env = earlier ++ l :: later ∧ σ.covered covers n l = false ∧
      (∀ a ∈ earlier, σ.covered covers n a = true) ∧ ∀ a ∈ taken, a ∈ earlier := by
  rw [lacking, List.head?_filter, List.find?_eq_some_iff_append] at head
  obtain ⟨lacks, earlier, rest, split, covered⟩ := head
  rw [Bool.not_eq_true'] at lacks
  have covered : ∀ a ∈ earlier, σ.covered covers n a = true := by
    intro a mem
    simpa using covered a mem
  subst is
  obtain ⟨upto, -⟩ := (climbing.climbs env).2 _ known
  obtain ⟨more, whole⟩ := upto
  rw [split, List.append_assoc, List.cons_append] at whole
  refine ⟨earlier, rest ++ more, whole.symm, lacks, covered, ?_⟩
  -- What has been taken is covered, so it does not reach as far as `l`.
  obtain ⟨st', onError', next', same, part⟩ := climbing.upto env begun
  cases same
  have reach : earlier ++ [l] <+: setting.full st env := ⟨rest ++ more, by rw [← whole]; simp⟩
  have within : taken <+: earlier := by
    rcases List.prefix_or_prefix_of_prefix part reach with short | long
    · rcases List.prefix_concat_iff.mp short with rfl | inside
      · rw [climbing.sofar l (by simp)] at lacks
        cases lacks
      · exact inside
    · rw [climbing.sofar l (long.subset (by simp))] at lacks
      cases lacks
  intro a mem
  exact within.subset mem

/-- A session in the middle of a climb wants only what comes after all that it holds. -/
theorem Climbing.ordered (climbing : Climbing covers counts before setting σ n body sure may taken)
    (transitive : ∀ a b c, covers a b = true → covers b c = true → covers a c = true)
    (known : setting.known (σ.view n)) (running : σ.progress n = .running body) :
    Ordered setting.plan covers counts before σ n := by
  intro l wants counted held mem counted'
  obtain ⟨st, onError, next, env, running', begun, head⟩ := wants_cases wants
  rw [running] at running'
  have is := Progress.running.inj running'
  obtain ⟨earlier, later, whole, lacks, covered, within⟩ := climbing.next known is begun head
  subst is
  have ascends := (climbing.climbs env).1
  rw [whole] at ascends
  have uncovered : ∀ held', (n, held') ∈ σ.locks → covers held' l ≠ true := by
    intro held' mem' by_
    rw [covered_iff.mpr ⟨held', mem', by_⟩] at lacks
    cases lacks
  rcases ascends.at counted with ⟨a, inside, by_⟩ | after
  · have is : σ.covered covers n a = true := by
      rcases List.mem_append.mp inside with old | new
      · exact climbing.surely a old
      · exact covered a new
    obtain ⟨held', mem', by'⟩ := covered_iff.mp is
    exact absurd (transitive _ _ _ by' by_) (uncovered held' mem')
  · have inside : held ∈ may ++ earlier := by
      rcases climbing.held held mem with old | new
      · exact List.mem_append_left _ old
      · exact List.mem_append_right _ (within held new)
    rcases after held inside counted' with by_ | comes
    · exact absurd by_ (uncovered held mem)
    · exact comes

/-- A step of one session leaves the others in the middle of their climbs. -/
theorem Climbed.others (climbed : Climbed covers counts before setting σ) (known : setting.known σ'.db)
    (progress : ∀ m, m ≠ n → σ'.progress m = σ.progress m)
    (begun : ∀ m, m ≠ n → σ'.begun m = σ.begun m)
    (locks : ∀ m, m ≠ n → ∀ l, (m, l) ∈ σ'.locks ↔ (m, l) ∈ σ.locks)
    (own : ∀ body, σ'.progress n = .running body →
      ∃ sure may taken, Climbing covers counts before setting σ' n body sure may taken) :
    Climbed covers counts before setting σ' := by
  constructor
  · exact known
  · intro m body running
    by_cases same : m = n
    · subst same
      exact own body running
    · rw [progress m same] at running
      obtain ⟨sure, may, taken, climbing⟩ := climbed.climbing m body running
      exact ⟨sure, may, taken, climbing.frame (locks m same) (begun m same)⟩

@[simp] theorem become_progress {progress : Progress Stmt Result Err ε α} :
    (σ.become n progress).progress n = progress := Function.update_self _ _ _

@[simp] theorem become_begun {progress : Progress Stmt Result Err ε α} :
    (σ.become n progress).begun n = none := Function.update_self _ _ _

theorem mem_locks_release (other : m ≠ n) (l : Lock T) :
    (m, l) ∈ (σ.release n).locks ↔ (m, l) ∈ σ.locks := by
  simp [release, other]

/-- The end of a transaction. -/
theorem Climbed.ended (climbed : Climbed covers counts before setting σ) {db : Db}
    (known : setting.known db) {progress : Progress Stmt Result Err ε α}
    (ended : ∀ body, progress ≠ .running body) :
    Climbed covers counts before setting { (σ.release n).become n progress with db := db } := by
  refine climbed.others (n := n) known ?_ ?_ ?_ ?_
  · intro m other
    exact Function.update_of_ne other _ _
  · intro m other
    exact Function.update_of_ne other _ _
  · intro m other l
    exact mem_locks_release other l
  · intro body running
    exact absurd (become_progress.symm.trans running) (ended body)

/-- A session that goes on with no statement begun, and has taken no lock. -/
theorem Climbed.goes (climbed : Climbed covers counts before setting σ) {pending : List (S × Write)}
    (climbs : body.Climbs covers counts before setting sure may)
    (surely : ∀ l ∈ sure, σ.covered covers n l = true) (held : ∀ l, (n, l) ∈ σ.locks → l ∈ may) :
    Climbed covers counts before setting { σ.become n (.running body) with pending := pending } := by
  refine climbed.others (n := n) climbed.known ?_ ?_ ?_ ?_
  · intro m other
    exact Function.update_of_ne other _ _
  · intro m other
    exact Function.update_of_ne other _ _
  · intro m other l
    exact Iff.rfl
  · intro body' running
    obtain rfl := Progress.running.inj (become_progress.symm.trans running)
    refine ⟨sure, may, [], climbs, surely, by simp, ?_, fun _ => rfl, ?_⟩
    · intro l mem
      exact Or.inl (held l mem)
    · intro env begun
      have none : (σ.become n (.running body)).begun n = none := become_begun
      rw [show (σ.become n (.running body)).begun n = some env from begun] at none
      cases none

/-- A session whose statement takes a lock. -/
theorem Climbed.takes (climbed : Climbed covers counts before setting σ)
    (reflexive : ∀ l, covers l l = true) {st : Stmt} {onError : Err → ε}
    {next : Result st → Tx Stmt Result Err ε α} {env : Env} {l : Lock T}
    (running : σ.progress n = .running (.exec st onError next)) (begun : σ.begun n = some env)
    (climbs : (Tx.exec st onError next).Climbs covers counts before setting sure may)
    (surely : ∀ l ∈ sure, σ.covered covers n l = true)
    (sofar : ∀ l ∈ taken, σ.covered covers n l = true)
    (held : ∀ l, (n, l) ∈ σ.locks → l ∈ may ∨ l ∈ taken) (upto : taken ++ [l] <+: setting.full st env) :
    Climbed covers counts before setting { σ with locks := σ.locks ++ [(n, l)] } := by
  have grows : ∀ a, σ.covered covers n a = true → ({ σ with locks := σ.locks ++ [(n, l)] } :
      Contention S Db Write T Env Stmt Result Err ε α).covered covers n a = true := by
    intro a is
    obtain ⟨held, mem, by_⟩ := covered_iff.mp is
    exact covered_iff.mpr ⟨held, List.mem_append_left _ mem, by_⟩
  refine climbed.others (n := n) climbed.known (fun _ _ => rfl) (fun _ _ => rfl) ?_ ?_
  · intro m other l'
    simp [other]
  · intro body running'
    rw [running] at running'
    cases running'
    refine ⟨sure, may, taken ++ [l], climbs, ?_, ?_, ?_, ?_, ?_⟩
    · intro a mem
      exact grows a (surely a mem)
    · intro a mem
      rcases List.mem_append.mp mem with old | new
      · exact grows a (sofar a old)
      · rw [List.mem_singleton.mp new]
        exact covered_iff.mpr ⟨l, List.mem_append_right _ (by simp), reflexive l⟩
    · intro a mem
      rcases List.mem_append.mp mem with old | new
      · exact (held a old).imp_right (List.mem_append_left _)
      · obtain ⟨-, rfl⟩ := Prod.mk.inj (List.mem_singleton.mp new)
        exact Or.inr (List.mem_append_right _ List.mem_cons_self)
    · intro unbegun
      rw [begun] at unbegun
      cases unbegun
    · intro env' begun'
      rw [begun] at begun'
      cases begun'
      exact ⟨st, onError, next, rfl, upto⟩

theorem known_view (keeps : ∀ db (w : Write), setting.known db → setting.known (Storage.apply db w))
    (known : setting.known σ.db) (n : S) : setting.known (σ.view n) := by
  have all : ∀ (ws : List Write) (db : Db), setting.known db → setting.known (applyAll db ws) := by
    intro ws
    induction ws with
    | nil =>
      intro db known
      exact known
    | cons w ws ih =>
      intro db known
      exact ih _ (keeps db w known)
  exact all _ _ known

/-- A session that begins its statement. -/
theorem Climbed.begins (climbed : Climbed covers counts before setting σ) {st : Stmt}
    {onError : Err → ε} {next : Result st → Tx Stmt Result Err ε α} (env : Env)
    (running : σ.progress n = .running (.exec st onError next)) (begun : σ.begun n = none)
    (climbing : Climbing covers counts before setting σ n (.exec st onError next) sure may taken) :
    Climbed covers counts before setting
      { σ with begun := Function.update σ.begun n (some env) } := by
  have nothing := climbing.unbegun begun
  subst nothing
  refine climbed.others (n := n) climbed.known (fun _ _ => rfl) ?_ (fun _ _ _ => Iff.rfl) ?_
  · intro m other
    exact Function.update_of_ne other _ _
  · intro body' running'
    rw [running] at running'
    cases running'
    refine ⟨sure, may, [], climbing.climbs, climbing.surely, by simp, climbing.held,
      fun _ => rfl, ?_⟩
    intro env' _
    exact ⟨st, onError, next, rfl, List.nil_prefix⟩

/-- A session whose statement runs: it goes on behind it, or to a throw. -/
theorem Climbed.executes (climbed : Climbed covers counts before setting σ)
    (known : setting.known (σ.view n)) {st : Stmt} {onError : Err → ε}
    {next : Result st → Tx Stmt Result Err ε α} {env : Env}
    (climbing : Climbing covers counts before setting σ n (.exec st onError next) sure may taken)
    (begun : σ.begun n = some env) (lacking : σ.lacking setting.plan covers n st env = [])
    (allowed : ∀ ws r, (setting.plan st env (σ.view n)).answer = .ok (ws, r) → setting.allowed st r) :
    Climbed covers counts before setting (σ.execute setting.plan n st onError next env) := by
  obtain ⟨_, _, _, same, part⟩ := climbing.upto env begun
  cases same
  unfold Contention.execute
  cases answer : (setting.plan st env (σ.view n)).answer with
  | error e =>
    have climbs : (Tx.throw (onError e) : Tx Stmt Result Err ε α).Climbs covers counts before
        setting [] (may ++ taken) := trivial
    apply climbed.goes climbs (by simp)
    intro l mem
    exact List.mem_append.mpr (climbing.held l mem)
  | ok found =>
    obtain ⟨ws, r⟩ := found
    obtain ⟨-, goesOn⟩ := (climbing.climbs env).2 _ known
    refine climbed.goes (goesOn ws r answer (allowed ws r answer)) ?_ ?_
    · intro l mem
      rcases List.mem_append.mp mem with old | new
      · exact climbing.surely l old
      · rw [Contention.lacking, List.filter_eq_nil_iff] at lacking
        simpa using lacking l new
    · intro l mem
      rcases climbing.held l mem with old | new
      · exact List.mem_append_left _ old
      · exact List.mem_append_right _ (part.subset new)

/-- Every turn leaves each session in the middle of its climb. -/
theorem Climbed.step (climbed : Climbed covers counts before setting σ)
    (reflexive : ∀ l, covers l l = true)
    (keeps : ∀ db (w : Write), setting.known db → setting.known (Storage.apply db w))
    {turn : Turn S Env ε} (allowed : Allowed setting σ turn)
    (stepped : σ.step setting.plan covers turn = some σ') :
    Climbed covers counts before setting σ' := by
  cases turn with
  | abort n e =>
    cases running : σ.progress n with
    | running body =>
      simp only [Contention.step, running, Option.some.injEq] at stepped
      subst stepped
      exact climbed.ended climbed.known (by simp)
    | returned a => simp [Contention.step, running] at stepped
    | threw e' => simp [Contention.step, running] at stepped
  | go n env time =>
    have known := known_view keeps climbed.known n
    cases running : σ.progress n with
    | returned a => simp [Contention.step, advance, running] at stepped
    | threw e => simp [Contention.step, advance, running] at stepped
    | running body =>
      obtain ⟨sure, may, taken, climbing⟩ := climbed.climbing n body running
      cases body with
      | pure a =>
        simp only [Contention.step, advance, running, Option.some.injEq] at stepped
        subst stepped
        exact climbed.ended known (by simp)
      | throw e =>
        simp only [Contention.step, advance, running, Option.some.injEq] at stepped
        subst stepped
        exact climbed.ended climbed.known (by simp)
      | now next =>
        simp only [Contention.step, advance, running, Option.some.injEq] at stepped
        subst stepped
        have unbegun : σ.begun n = none := by
          cases begun : σ.begun n with
          | none => rfl
          | some env' =>
            obtain ⟨_, _, _, same, -⟩ := climbing.upto env' begun
            cases same
        refine climbed.goes (climbing.climbs time) climbing.surely fun l mem => ?_
        have nothing := climbing.unbegun unbegun
        subst nothing
        exact (climbing.held l mem).resolve_right List.not_mem_nil
      | exec st onError next =>
        cases begun : σ.begun n with
        | none =>
          simp only [Contention.step, advance, running, begun, Option.some.injEq] at stepped
          subst stepped
          exact climbed.begins env running begun climbing
        | some env' =>
          cases lacking : σ.lacking setting.plan covers n st env' with
          | nil =>
            simp only [Contention.step, advance, running, begun, lacking, Option.some.injEq] at stepped
            subst stepped
            exact climbed.executes known climbing begun lacking fun ws r answer =>
              allowed st onError next env' ws r running begun answer
          | cons l rest =>
            -- It takes a lock.
            cases grants : σ.grants n l with
            | false => simp [Contention.step, advance, running, begun, lacking, grants] at stepped
            | true =>
              simp only [Contention.step, advance, running, begun, lacking, grants, if_true,
                Option.some.injEq] at stepped
              subst stepped
              obtain ⟨earlier, later, whole, -, covered, within⟩ :=
                climbing.next known rfl begun (by rw [lacking]; rfl)
              refine climbed.takes reflexive running begun climbing.climbs climbing.surely covered ?_
                ⟨later, by rw [whole]; simp⟩
              intro a mem
              exact (climbing.held a mem).imp_right (within a)

/-- No transaction has begun. -/
theorem Climbed.init {db : Db} {bodies : S → Tx Stmt Result Err ε α}
    (climbs : ∀ n, (bodies n).Climbs covers counts before setting [] []) (known : setting.known db) :
    Climbed covers counts before setting (Contention.start db bodies) := by
  constructor
  · exact known
  · intro n body running
    cases running
    refine ⟨[], [], [], climbs n, by simp, by simp, ?_, fun _ => rfl, ?_⟩
    · intro l mem
      cases mem
    · intro env begun
      cases begun

/-- Sessions whose programs take their locks in order never wait in a cycle. Aborts, failing
statements and rereads are among the turns. -/
theorem run_acyclic {db : Db} {bodies : S → Tx Stmt Result Err ε α}
    (climbs : ∀ n, (bodies n).Climbs covers counts before setting [] []) (known : setting.known db)
    (keeps : ∀ db (w : Write), setting.known db → setting.known (Storage.apply db w))
    (reflexive : ∀ l, covers l l = true)
    (transitive : ∀ a b c, covers a b = true → covers b c = true → covers a c = true)
    (irrefl : ∀ a, ¬ before a a) (trans : ∀ a b c, before a b → before b c → before a c)
    {trace : List (Contention S Db Write T Env Stmt Result Err ε α × Turn S Env ε)}
    (run : Run (Contention.step setting.plan covers) (Contention.start db bodies) trace σ)
    (allowed : ∀ p ∈ trace, Allowed setting p.1 p.2) (n : S) :
    ¬ Relation.TransGen (σ.WaitsFor setting.plan covers counts) n n := by
  have climbed : Climbed covers counts before setting σ :=
    run.invariant_while (Climbed covers counts before setting) (Climbed.init climbs known)
      (fun _ _ _ climbed allowed stepped => climbed.step reflexive keeps allowed stepped) allowed
  refine WaitsFor.acyclic irrefl trans fun m => ?_
  intro l wants
  obtain ⟨st, onError, next, env, running, -⟩ := wants_cases wants
  obtain ⟨sure, may, taken, climbing⟩ := climbed.climbing m _ running
  exact climbing.ordered transitive (known_view keeps climbed.known m) running l wants

end Climbing

end Contention

end Lib
