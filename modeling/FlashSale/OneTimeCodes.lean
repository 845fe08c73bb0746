/-
# One-time codes under concurrent verifications

`findValid` reads `used` and `attempts` outside the transaction that marks a code
used and before the statement that counts a wrong one, so several calls can be past
the same read. Neither statement asks again what was read.

For both properties the condition is on the committed row before a step: that a
verification commits on a code that is unused, and that a comparison is made while the wrong
ones that are still to be counted leave an attempt. `UsedOnce` and `Capped` are what the
runs keep that meet it; in the second, a wrong code is counted in the row or by a client
that is about to count it.

* `Run.single_use`: a code lets at most one call through, and at most one token pair
  is returned on it, in the runs whose verifications commit on unused codes.
* `used_twice`: two calls read a code before either commits.
* `Run.guess_cap`: fewer than `maxOtpAttempts` wrong codes precede every comparison
  with a code, in the runs whose comparisons are made within the attempts that are
  left and whose wrong ones are all counted.
* `guessed_six_times`: six calls read a code before any is counted.
-/
import FlashSale.Activation
import FlashSale.Answers
import Mathlib.Data.Set.Card

namespace FlashSale

open Lib (Table)

/-! ### Single use -/

/-- A verification that this step commits is of a code that is unused. The code was read as
unused before the transaction, which does not look again. -/
def VerifiesUnused (s : State) : Label → Prop
  | .client n _ =>
    match s.clients n with
    | .tx (.verify _ otpId _) _ (.pure _) => (s.server.db.otpCodes.get? otpId).any (·.used) = false
    | _ => True
  | _ => True

def verifiesUnused (s : State) : Label → Bool
  | .client n _ =>
    match s.clients n with
    | .tx (.verify _ otpId _) _ (.pure _) => !(s.server.db.otpCodes.get? otpId).any (·.used)
    | _ => true
  | _ => true

theorem verifiesUnused_iff {s : State} {l : Label} :
    verifiesUnused s l = true ↔ VerifiesUnused s l := by
  unfold verifiesUnused VerifiesUnused
  split
  · split <;> simp
  · simp

instance (s : State) (l : Label) : Decidable (VerifiesUnused s l) :=
  decidable_of_iff (verifiesUnused s l = true) verifiesUnused_iff

def AccountChange.usesCode (otpId : Uuid) (change : AccountChange) : Bool :=
  decide (change.uses = some otpId)

/-- A pair that is granted on a code. -/
def Grant.onCode (otpId : Uuid) (grant : Grant) : Bool := decide (grant.basis = .code otpId)

/-- What runs keep whose verifications commit on unused codes: a code that has been used is
marked, and one that is not has no pair on its way. -/
structure UsedOnce (cfg : Cfg) (otpId : Uuid) (s : State) : Prop where
  coherent : Coherent cfg s
  once : (changes s.history).countP (AccountChange.usesCode otpId) ≤ 1
  marked : (changes s.history).countP (AccountChange.usesCode otpId) ≠ 0 →
    (s.server.db.otpCodes.get? otpId).any (·.used) = true
  none : (changes s.history).countP (AccountChange.usesCode otpId) = 0 →
    NoGrant (Grant.onCode otpId) s
  single : SingleGrant (Grant.onCode otpId) s

section SingleUse

variable {cfg : Cfg} {start s s' : State} {l : Label} {trace : List (State × Label)} {otpId : Uuid}

/-- A pair that begins on a code is that of a verification which commits. -/
theorem Begins.onCode {n : Nat} {grant : Grant} (begins : Begins s l n grant)
    (is : grant.onCode otpId = true) :
    ∃ user, s.change? l = some (.verified otpId user) := by
  have basis := of_decide_eq_true is
  cases begins with
  | login => cases basis
  | verifies change =>
    cases basis
    exact ⟨_, change⟩
  | rotates _ _ => cases basis

/-- A code that is used stays used, and one whose verification commits becomes used. -/
theorem step_used (coherent : Coherent cfg s) (taken : step cfg s l = some s') {otp : OtpRow}
    (found : s.server.db.otpCodes.get? otpId = some otp)
    (used : otp.used = true ∨ ∃ user, s.change? l = some (.verified otpId user)) :
    (s'.server.db.otpCodes.get? otpId).any (·.used) = true := by
  obtain ⟨sent, after⟩ := step_otp coherent taken found
  rw [after]
  rcases used with before | ⟨user, change⟩
  · simp [OtpRow.after, before]
  · simp [OtpRow.after, change, AccountChange.uses]

theorem UsedOnce.step (once : UsedOnce cfg otpId s) (unused : VerifiesUnused s l)
    (taken : FlashSale.step cfg s l = some s') : UsedOnce cfg otpId s' := by
  obtain ⟨coherent, once, marked, none, single⟩ := once
  have coherent' := (step_coherent coherent taken).1
  have stays : (s.server.db.otpCodes.get? otpId).any (·.used) = true →
      (s'.server.db.otpCodes.get? otpId).any (·.used) = true := by
    intro used
    obtain ⟨otp, found, is⟩ := (Option.any_eq_true _ _).mp used
    exact step_used coherent taken found (Or.inl is)
  by_cases mine : ∃ user, s.change? l = some (.verified otpId user)
  · obtain ⟨user, change⟩ := mine
    -- The code was unused, so it had let no call through.
    obtain ⟨otp, found, -⟩ : Owned otpId user s.server.db := step_found coherent taken change
    have before : (changes s.history).countP (AccountChange.usesCode otpId) = 0 := by
      by_contra some
      rcases change_cases change with ⟨n, choice, dto, _, _, started, rfl, at_, eq⟩ |
        ⟨_, _, _, _, _, _, eq⟩ | ⟨_, _, _, _, _, eq⟩ <;> cases eq
      simp only [VerifiesUnused, at_] at unused
      rw [marked some] at unused
      cases unused
    have after : (changes s'.history).countP (AccountChange.usesCode otpId) = 1 := by
      simp [step_changes taken, change, before, AccountChange.usesCode, AccountChange.uses]
    refine ⟨coherent', after.le, fun _ => ?_, fun zero => ?_, ?_⟩
    · exact step_used coherent taken found (Or.inr ⟨user, change⟩)
    · rw [after] at zero
      cases zero
    · exact single.step taken fun _ _ _ _ => none before
  · -- No pair on the code begins.
    have other : ((s.change? l).toList).countP (AccountChange.usesCode otpId) = 0 := by
      rw [List.countP_eq_zero]
      intro change mem uses
      have given := Option.mem_toList.mp mem
      rcases change_cases given with ⟨_, _, _, _, user, _, _, _, rfl⟩ | ⟨_, _, _, _, _, _, rfl⟩ |
        ⟨_, _, _, _, _, rfl⟩
      · cases of_decide_eq_true uses
        exact mine ⟨user, given⟩
      · cases of_decide_eq_true uses
      · cases of_decide_eq_true uses
    have same : (changes s'.history).countP (AccountChange.usesCode otpId) =
        (changes s.history).countP (AccountChange.usesCode otpId) := by
      rw [step_changes taken, List.countP_append, other, Nat.add_zero]
    refine ⟨coherent', same ▸ once, fun some => stays (marked (same ▸ some)), fun zero => ?_, ?_⟩
    · refine (none (same ▸ zero)).step taken fun n grant begins => ?_
      by_contra is
      exact mine (begins.onCode (by simpa using is))
    · exact single.step taken fun n grant begins is => absurd (begins.onCode is) mine

/-- When every verification commits on an unused code, a code lets at most one call
through, and at most one token pair is returned on it. -/
theorem Run.single_use (fresh : Fresh start) (run : Run cfg start trace s)
    (unused : ∀ p ∈ trace, VerifiesUnused p.1 p.2) (otpId : Uuid) :
    (changes s.history).countP (AccountChange.usesCode otpId) ≤ 1 ∧
    (grants s.history).countP (Grant.onCode otpId) ≤ 1 ∧
    ∀ n grant, s.grant? n = some grant → grant.onCode otpId = true →
      (grants s.history).countP (Grant.onCode otpId) = 0 ∧
      ∀ n' grant', s.grant? n' = some grant' → grant'.onCode otpId = true → n' = n := by
  have no : NoGrant (Grant.onCode otpId) start := by
    refine ⟨fun n grant on => ?_, by rw [fresh.history]; rfl⟩
    rw [State.grant?, State.views, fresh.clients n] at on
    cases on
  have init : UsedOnce cfg otpId start := by
    refine ⟨fresh.coherent, ?_, ?_, fun _ => no, no.single⟩
    · simp [fresh.history, changes]
    · simp [fresh.history, changes]
  have once : UsedOnce cfg otpId s := Lib.Run.invariant_while (UsedOnce cfg otpId) init
    (fun _ _ _ once unused taken => once.step unused taken) run unused
  refine ⟨once.once, once.single.most, fun n grant on is => ⟨once.single.first n grant on is, ?_⟩⟩
  intro n' grant' on' is'
  exact once.single.one n' n grant' grant on' on is' is

/-- Two clients send the code, and both have compared it before either commits. -/
def verifyingTwice : List Label :=
  guessing 0 "100000" ++ guessing 1 "100000" ++
    Label.clientSteps 0 5 7 ++ .command 0 :: Label.clientSteps 0 1 7 ++
    Label.clientSteps 1 5 8 ++ .command 1 :: Label.clientSteps 1 1 8

theorem verifyingTwice_runs :
    (Lib.execute (step plainCfg) (memberShop .pendingVerification) verifyingTwice).isSome = true := by
  decide +kernel

/-- Both calls return a token pair on the code. The update that marks it used does not ask
whether it is. -/
theorem used_twice :
    ∃ s, Run plainCfg (memberShop .pendingVerification)
        (Lib.traceOf (step plainCfg) (memberShop .pendingVerification) verifyingTwice) s ∧
      (grants s.history).countP (Grant.onCode 5) = 2 := by
  have twice : (grants ((Lib.execute (step plainCfg) (memberShop .pendingVerification)
      verifyingTwice).get verifyingTwice_runs).history).countP (Grant.onCode 5) = 2 := by
    decide +kernel
  exact ⟨_, Lib.Run.of_isSome verifyingTwice_runs, twice⟩

/-- A client sends the code, and then another one does. -/
def verifyingAgain : List Label :=
  verifying 0 8 ++ .auth 1 (.verifyOtp ⟨mail, "100000"⟩) :: Label.clientSteps 1 3 0

theorem verifyingAgain_runs :
    (Lib.execute (step plainCfg) (memberShop .pendingVerification) verifyingAgain).isSome = true := by
  decide +kernel

/-- The first is returned a token pair, and the second an error. -/
theorem single_use_again :
    ∃ s, Run plainCfg (memberShop .pendingVerification)
        (Lib.traceOf (step plainCfg) (memberShop .pendingVerification) verifyingAgain) s ∧
      (grants s.history).countP (Grant.onCode 5) = 1 ∧
      (answersOf s.history).getLast? =
        some (1, .auth (.verifyOtp ⟨mail, "100000"⟩), otpExpired.response) ∧
      (changes s.history).countP (AccountChange.usesCode 5) ≤ 1 := by
  have run := Lib.Run.of_isSome verifyingAgain_runs
  have unused : ∀ p ∈ Lib.traceOf (step plainCfg) (memberShop .pendingVerification) verifyingAgain,
      VerifiesUnused p.1 p.2 := by decide +kernel
  have granted : (grants ((Lib.execute (step plainCfg) (memberShop .pendingVerification)
      verifyingAgain).get verifyingAgain_runs).history).countP (Grant.onCode 5) = 1 := by
    decide +kernel
  have refused : (answersOf ((Lib.execute (step plainCfg) (memberShop .pendingVerification)
      verifyingAgain).get verifyingAgain_runs).history).getLast? =
      some (1, .auth (.verifyOtp ⟨mail, "100000"⟩), otpExpired.response) := by decide +kernel
  have single := Run.single_use (State.initial_fresh _ _ _) run unused 5
  exact ⟨_, run, granted, refused, single.1⟩

end SingleUse

/-! ### The cap on guesses -/

/-- A comparison with the code that found another one. -/
def Event.isWrong (otpId : Uuid) : Event → Bool
  | .compared _ _ _ id equal => decide (id = otpId) && !equal
  | _ => false

/-- The wrong codes that have been compared with a code. -/
def wrongs (otpId : Uuid) (history : List Event) : Nat := history.countP (Event.isWrong otpId)

/-- The clients that have compared a wrong code and not counted it yet. -/
def State.counting (s : State) (otpId : Uuid) : Set Nat :=
  {n | ∃ dto, s.views n = some (.call (.verifyCount dto otpId))}

def State.attempts (s : State) (otpId : Uuid) : Nat :=
  ((s.server.db.otpCodes.get? otpId).map (·.attempts)).getD 0

/-- A comparison that this step makes is within the attempts that are left, those
that others are about to count included, and a wrong code is not left uncounted. -/
def WithinCap (s : State) : Label → Prop
  | .client n _ =>
    match s.clients n with
    | .auth (.verifyCompare _ _ otpId _) =>
      (s.attempts otpId : ℕ∞) + (s.counting otpId).encard < maxOtpAttempts
    | _ => True
  | .clientFail n => ∀ otpId, n ∉ s.counting otpId
  | .clientCrash n => ∀ otpId, n ∉ s.counting otpId
  | _ => True

/-- The code that a call has read. -/
def AuthView.otp? : AuthView → Option Uuid
  | .call (.verifyCompare _ _ otpId _) => some otpId
  | .call (.verifyCount _ otpId) => some otpId
  | .verifying _ otpId _ => some otpId
  | _ => none

/-- Every comparison with the code comes after fewer than `maxOtpAttempts` wrong ones, in the
order in which the comparisons were made. -/
def InTime (otpId : Uuid) (history : List Event) : Prop :=
  ∀ before n dto user equal after, history = before ++ .compared n dto user otpId equal :: after →
    wrongs otpId before < maxOtpAttempts

/-- What runs keep whose comparisons are within the cap: each wrong one is in the row's count, or
its client is about to count it. -/
structure Capped (cfg : Cfg) (otpId : Uuid) (s : State) : Prop where
  coherent : Coherent cfg s
  there : ∀ n view id, s.views n = some view → view.otp? = some id →
    ∃ otp, s.server.db.otpCodes.get? id = some otp
  counted : (wrongs otpId s.history : ℕ∞) ≤ s.attempts otpId + (s.counting otpId).encard
  bounded : (s.counting otpId).Nonempty →
    (s.attempts otpId : ℕ∞) + (s.counting otpId).encard ≤ maxOtpAttempts
  most : wrongs otpId s.history ≤ maxOtpAttempts
  inTime : InTime otpId s.history

section Guesses

variable {cfg : Cfg} {start s s' : State} {l : Label} {trace : List (State × Label)} {otpId : Uuid}

@[simp] theorem wrongs_append (history more : List Event) :
    wrongs otpId (history ++ more) = wrongs otpId history + wrongs otpId more :=
  List.countP_append

/-- Events without a comparison with the code keep the order. -/
theorem InTime.append {history events : List Event} (inTime : InTime otpId history)
    (none : ∀ n dto user equal, .compared n dto user otpId equal ∉ events) :
    InTime otpId (history ++ events) := by
  intro before n dto user equal after split
  rcases added_cases split with ⟨mid, old, -⟩ | ⟨mid, new, -⟩
  · exact inTime before n dto user equal mid old
  · exact absurd (new ▸ List.mem_append_right _ List.mem_cons_self) (none n dto user equal)

/-- A comparison within the cap keeps the order. -/
theorem InTime.compared {history : List Event} (inTime : InTime otpId history) {e : Event}
    (few : wrongs otpId history < maxOtpAttempts) : InTime otpId (history ++ [e]) := by
  intro before n dto user equal after split
  rcases added_cases split with ⟨mid, old, -⟩ | ⟨mid, new, rfl⟩
  · exact inTime before n dto user equal mid old
  · cases mid with
    | nil => rwa [List.append_nil]
    | cons first mid => cases mid <;> cases new

/-- What a step does to the attempts of a code. -/
theorem step_attempts (coherent : Coherent cfg s) (taken : step cfg s l = some s') :
    s'.attempts otpId =
      s.attempts otpId + ((s.change? l).map (AccountChange.counts otpId)).getD 0 := by
  cases found : s.server.db.otpCodes.get? otpId with
  | some otp =>
    obtain ⟨sent, after⟩ := step_otp coherent taken found
    simp [State.attempts, found, after, OtpRow.after]
  | none =>
    have none : ((s.change? l).map (AccountChange.counts otpId)).getD 0 = 0 := by
      cases given : s.change? l with
      | none => rfl
      | some change =>
        have there := step_found coherent taken given
        cases change with
        | attempted id =>
          obtain ⟨otp, found'⟩ := there
          have other : id ≠ otpId := by
            rintro rfl
            rw [found] at found'
            cases found'
          simp [AccountChange.counts, other]
        | _ => rfl
    rw [none, State.attempts, State.attempts, found]
    cases after : s'.server.db.otpCodes.get? otpId with
    | none => rfl
    | some otp =>
      rcases step_otp_back coherent taken after with ⟨otp', sent, found', -⟩ |
        ⟨-, commit, user, identifier, otp', createdAt, -, -, rfl⟩
      · rw [found] at found'
        cases found'
      · rfl

/-- A wrong code is counted when the row is there and within the cap. -/
theorem counting_commits {n : Nat} {choice : Choice} {dto : VerifyOtpDto} {otp : OtpRow}
    (at_ : s.clients n = .auth (.verifyCount dto otpId))
    (found : s.server.db.otpCodes.get? otpId = some otp) (few : otp.attempts ≤ maxOtpAttempts) :
    s.change? (.client n choice) = some (.attempted otpId) := by
  have fits : int4 (otp.attempts + 1) = true := by
    unfold maxOtpAttempts at few
    simp only [int4, decide_eq_true_eq]
    omega
  simp [State.change?, State.committing, Client.committing, at_, AuthCall.committing, found, fits,
    Commit.change?]

/-- What a step does to the guesses at a code: none is made, the right one is, a wrong one is
and waits to be counted, or one that waited is counted or lost. -/
inductive CountStep (otpId : Uuid) (s : State) (l : Label) (s' : State) : Prop where
  | quiet {events : List Event} (history : s'.history = s.history ++ events)
      (none : ∀ n dto user equal, .compared n dto user otpId equal ∉ events)
      (counting : s'.counting otpId = s.counting otpId)
      (attempts : s'.attempts otpId = s.attempts otpId)
  | right {n : Nat} {choice : Choice} {dto : VerifyOtpDto} {user : Uuid} {otp : OtpRow}
      (label : l = .client n choice)
      (at_ : s.clients n = .auth (.verifyCompare dto user otpId otp))
      (history : s'.history = s.history ++ [.compared n dto user otpId true])
      (counting : s'.counting otpId = s.counting otpId)
      (attempts : s'.attempts otpId = s.attempts otpId)
  | wrong {n : Nat} {choice : Choice} {dto : VerifyOtpDto} {user : Uuid} {otp : OtpRow}
      (label : l = .client n choice)
      (at_ : s.clients n = .auth (.verifyCompare dto user otpId otp))
      (history : s'.history = s.history ++ [.compared n dto user otpId false])
      (new : n ∉ s.counting otpId) (counting : s'.counting otpId = insert n (s.counting otpId))
      (attempts : s'.attempts otpId = s.attempts otpId)
  | counted {n : Nat} {events : List Event} (history : s'.history = s.history ++ events)
      (none : ∀ n dto user equal, .compared n dto user otpId equal ∉ events)
      (old : n ∈ s.counting otpId) (counting : s'.counting otpId = s.counting otpId \ {n})
      (attempts : s'.attempts otpId = s.attempts otpId + 1)
  | lost {n : Nat} (old : n ∈ s.counting otpId) (label : l = .clientFail n ∨ l = .clientCrash n)

theorem mem_counting {n : Nat} :
    n ∈ s.counting otpId ↔ ∃ dto, s.views n = some (.call (.verifyCount dto otpId)) :=
  Iff.rfl

/-- The counting clients after one view has moved. -/
theorem counting_update {n : Nat} {next : Option AuthView}
    (views : s'.views = Function.update s.views n next) (m : Nat) :
    m ∈ s'.counting otpId ↔
      (m ≠ n ∧ m ∈ s.counting otpId) ∨
      (m = n ∧ ∃ dto, next = some (.call (.verifyCount dto otpId))) := by
  rw [mem_counting, mem_counting, views]
  by_cases own : m = n
  · subst own
    simp
  · simp [own]

/-- A client that begins and ends counting no guess at the code leaves the others. -/
theorem counting_same {n : Nat} {next : Option AuthView}
    (views : s'.views = Function.update s.views n next) (before : n ∉ s.counting otpId)
    (after : ∀ dto, next ≠ some (.call (.verifyCount dto otpId))) :
    s'.counting otpId = s.counting otpId := by
  ext m
  rw [counting_update views]
  constructor
  · rintro (⟨-, old⟩ | ⟨-, dto, is⟩)
    · exact old
    · exact absurd is (after dto)
  · intro old
    refine Or.inl ⟨?_, old⟩
    rintro rfl
    exact before old

/-- A client that starts to count a guess joins the others. -/
theorem counting_insert {n : Nat} {dto : VerifyOtpDto}
    (views : s'.views = Function.update s.views n (some (.call (.verifyCount dto otpId))))
    (before : n ∉ s.counting otpId) : s'.counting otpId = insert n (s.counting otpId) := by
  ext m
  rw [counting_update views, Set.mem_insert_iff]
  constructor
  · rintro (⟨-, old⟩ | ⟨own, -⟩)
    · exact Or.inr old
    · exact Or.inl own
  · rintro (own | old)
    · exact Or.inr ⟨own, dto, rfl⟩
    · refine Or.inl ⟨?_, old⟩
      rintro rfl
      exact before old

/-- A client that has counted its guess leaves the others. -/
theorem counting_remove {n : Nat} {next : Option AuthView}
    (views : s'.views = Function.update s.views n next)
    (after : ∀ dto, next ≠ some (.call (.verifyCount dto otpId))) :
    s'.counting otpId = s.counting otpId \ {n} := by
  ext m
  rw [counting_update views, Set.mem_sdiff, Set.mem_singleton_iff]
  constructor
  · rintro (⟨other, old⟩ | ⟨-, dto, is⟩)
    · exact ⟨old, other⟩
    · exact absurd is (after dto)
  · rintro ⟨old, other⟩
    exact Or.inl ⟨other, old⟩

section Moves

variable {n : Nat} {choice : Choice} {view : AuthView} {next : Option AuthView} {events : List Event}
  {dto : VerifyOtpDto} {user id : Uuid} {otp : OtpRow}

theorem not_counting (at_ : s.views n = some view)
    (other : ∀ dto, view ≠ .call (.verifyCount dto otpId)) : n ∉ s.counting otpId := by
  rintro ⟨dto, is⟩
  rw [at_] at is
  exact other dto (Option.some.inj is)

/-- A move that neither begins nor ends a guess at the code. -/
theorem CountStep.still (views : s'.views = Function.update s.views n next)
    (history : s'.history = s.history ++ events) (before : n ∉ s.counting otpId)
    (after : ∀ dto, next ≠ some (.call (.verifyCount dto otpId)))
    (none : ∀ n dto user equal, .compared n dto user otpId equal ∉ events)
    (attempts : s'.attempts otpId = s.attempts otpId) : CountStep otpId s l s' :=
  .quiet history none (counting_same views before after) attempts

theorem CountStep.matches (at_ : s.clients n = .auth (.verifyCompare dto user id otp))
    (views : s'.views = Function.update s.views n next)
    (history : s'.history = s.history ++ [.compared n dto user id true])
    (after : ∀ dto, next ≠ some (.call (.verifyCount dto otpId)))
    (attempts : s'.attempts otpId = s.attempts otpId) :
    CountStep otpId s (.client n choice) s' := by
  have away : n ∉ s.counting otpId :=
    not_counting (show s.views n = some (.call (.verifyCompare dto user id otp)) by
      rw [State.views, at_]; rfl) (by simp)
  by_cases mine : id = otpId
  · subst mine
    exact .right rfl at_ history (counting_same views away after) attempts
  · exact .still views history away after (by simp [Ne.symm mine]) attempts

theorem CountStep.differs (at_ : s.clients n = .auth (.verifyCompare dto user id otp))
    (views : s'.views = Function.update s.views n (some (.call (.verifyCount dto id))))
    (history : s'.history = s.history ++ [.compared n dto user id false])
    (attempts : s'.attempts otpId = s.attempts otpId) :
    CountStep otpId s (.client n choice) s' := by
  have away : n ∉ s.counting otpId :=
    not_counting (show s.views n = some (.call (.verifyCompare dto user id otp)) by
      rw [State.views, at_]; rfl) (by simp)
  by_cases mine : id = otpId
  · subst mine
    exact .wrong rfl at_ history away (counting_insert views away) attempts
  · exact .still views history away (by simp [mine]) (by simp [Ne.symm mine]) attempts

theorem CountStep.counts (at_ : s.views n = some (.call (.verifyCount dto id)))
    (views : s'.views = Function.update s.views n next)
    (history : s'.history = s.history ++ events)
    (after : ∀ dto, next ≠ some (.call (.verifyCount dto otpId)))
    (none : ∀ n dto user equal, .compared n dto user otpId equal ∉ events)
    (attempts : s'.attempts otpId = s.attempts otpId + if id = otpId then 1 else 0) :
    CountStep otpId s l s' := by
  by_cases mine : id = otpId
  · subst mine
    rw [if_pos rfl] at attempts
    exact .counted history none ⟨dto, at_⟩ (counting_remove views after) attempts
  · rw [if_neg mine] at attempts
    exact .still views history (not_counting at_ (by simp [mine])) after none attempts

/-- A client that ends without a change has lost its guess, as the increment would have been
committed. -/
theorem CountStep.ends (at_ : s.views n = some view)
    (there : ∀ n view id, s.views n = some view → view.otp? = some id →
      ∃ otp, s.server.db.otpCodes.get? id = some otp)
    (bounded : (s.counting otpId).Nonempty →
      (s.attempts otpId : ℕ∞) + (s.counting otpId).encard ≤ maxOtpAttempts)
    (lost : l = .clientFail n ∨ l = .clientCrash n ∨ ∃ choice, l = .client n choice)
    (views : s'.views = Function.update s.views n none)
    (history : s'.history = s.history ++ events) (quiet : Quiet events)
    (unchanged : s.change? l = none) (attempts : s'.attempts otpId = s.attempts otpId) :
    CountStep otpId s l s' := by
  have none : ∀ n dto user equal, .compared n dto user otpId equal ∉ events :=
    fun _ _ _ _ mem => by cases quiet _ mem
  by_cases counts : ∃ dto, view = .call (.verifyCount dto otpId)
  · obtain ⟨dto, rfl⟩ := counts
    have old : n ∈ s.counting otpId := ⟨dto, at_⟩
    rcases lost with label | label | ⟨choice, rfl⟩
    · exact .lost old (Or.inl label)
    · exact .lost old (Or.inr label)
    · exfalso
      obtain ⟨otp, found⟩ := there n _ otpId at_ rfl
      have few := bounded ⟨n, old⟩
      have small : otp.attempts ≤ maxOtpAttempts := by
        have le : (s.attempts otpId : ℕ∞) ≤ maxOtpAttempts := le_trans le_self_add few
        simpa [State.attempts, found] using le
      rw [counting_commits (Client.view_call at_) found small] at unchanged
      cases unchanged
  · exact .still views history (not_counting at_ fun dto is => counts ⟨dto, is⟩) (by simp) none attempts

end Moves

theorem step_counts (coherent : Coherent cfg s)
    (there : ∀ n view id, s.views n = some view → view.otp? = some id →
      ∃ otp, s.server.db.otpCodes.get? id = some otp)
    (bounded : (s.counting otpId).Nonempty →
      (s.attempts otpId : ℕ∞) + (s.counting otpId).encard ≤ maxOtpAttempts)
    (taken : step cfg s l = some s') : CountStep otpId s l s' := by
  have attempted : s'.attempts otpId = _ := step_attempts coherent taken
  have kept : s.change? l = none → s'.attempts otpId = s.attempts otpId := by
    intro none
    rw [attempted, none]
    rfl
  cases step_auth taken with
  | other views _ history quiet =>
    have none : s.change? l = none := by
      rw [step_change taken history, quiet.changes]
      rfl
    refine .quiet history (fun _ _ _ _ mem => by cases quiet _ mem) ?_ (kept none)
    ext m
    rw [mem_counting, mem_counting, views]
  | @moves n next events move views history =>
    have change := step_change taken history
    generalize at_ : s.views n = view, s'.tokens = tokens at move
    cases move with
    | asks starts =>
      refine .still views history (fun ⟨_, is⟩ => by rw [at_] at is; cases is) ?_ (by simp)
        (kept change)
      cases starts <;> simp
    | ends quiet lost =>
      exact .ends at_ there bounded lost views history quiet
        (by rw [change, quiet.changes]; rfl) (kept (by rw [change, quiet.changes]; rfl))
    | verified =>
      refine .still views history (not_counting at_ (by simp)) (by simp) (by simp) ?_
      rw [attempted, change]
      rfl
    | commands done =>
      refine .still views history (not_counting at_ ?_) ?_ (by simp) (kept change)
      · cases done <;> simp
      · cases done <;> simp
    | goes goes =>
      cases goes with
      | verifyMatches plain =>
        exact .matches (Client.view_call at_) views history (by simp [Client.view])
          (by rw [attempted, change]; rfl)
      | verifyDiffers plain differs =>
        exact .differs (Client.view_call at_) views history (by rw [attempted, change]; rfl)
      | @counts dto id =>
        refine .counts at_ views history (by simp [Client.view]) (by simp) ?_
        rw [attempted, change]
        simp [changes, commits, Event.commit?, Commit.change?, AccountChange.counts]
      | _ =>
        exact .still views history (not_counting at_ (by simp)) (by simp [Client.view]) (by simp)
          (by rw [attempted, change]; rfl)

theorem wrongs_none {events : List Event}
    (none : ∀ n dto user equal, .compared n dto user otpId equal ∉ events) :
    wrongs otpId events = 0 := by
  refine List.countP_eq_zero.mpr fun e mem => ?_
  cases e with
  | compared n dto user id equal =>
    have other : id ≠ otpId := by
      rintro rfl
      exact none n dto user equal mem
    simp [Event.isWrong, other]
  | _ => simp [Event.isWrong]

/-- The code that a call has read stays there. -/
theorem step_there (coherent : Coherent cfg s)
    (there : ∀ n view id, s.views n = some view → view.otp? = some id →
      ∃ otp, s.server.db.otpCodes.get? id = some otp)
    (taken : step cfg s l = some s') {m : Nat} {view : AuthView} {id : Uuid}
    (is : s'.views m = some view) (read : view.otp? = some id) :
    ∃ otp, s'.server.db.otpCodes.get? id = some otp := by
  have stays : ∀ {otp}, s.server.db.otpCodes.get? id = some otp →
      ∃ otp', s'.server.db.otpCodes.get? id = some otp' := by
    intro otp found
    obtain ⟨sent, after⟩ := step_otp coherent taken found
    exact ⟨_, after⟩
  have kept : ∀ {view : AuthView}, s.views m = some view → view.otp? = some id →
      ∃ otp, s'.server.db.otpCodes.get? id = some otp := by
    intro view is read
    obtain ⟨otp, found⟩ := there m view id is read
    exact stays found
  cases step_auth taken with
  | other views _ _ _ =>
    rw [views] at is
    exact kept is read
  | @moves n next events move views history =>
    rw [views] at is
    by_cases own : m = n
    · subst own
      rw [Function.update_self] at is
      generalize s.views m = before, s'.tokens = tokens at move kept
      cases move with
      | asks starts => cases starts <;> cases is <;> cases read
      | ends _ _ => cases is
      | verified => cases is; cases read
      | commands done => cases done <;> cases is <;> cases read
      | goes goes =>
        cases goes with
        | verifyReads found _ _ =>
          cases is
          cases read
          exact stays found
        | verifyMatches _ =>
          cases is
          exact kept rfl read
        | verifyDiffers _ _ =>
          cases is
          exact kept rfl read
        | loginFinds _ => cases is; cases read
        | loginPasses _ _ => cases is; cases read
        | verifyFinds _ _ => cases is; cases read
        | verifyTimes => cases is; cases read
        | gets _ _ _ => cases is; cases read
        | issues => cases is; cases read
        | _ => cases is
    · rw [Function.update_of_ne own] at is
      exact kept is read

theorem Capped.step (capped : Capped cfg otpId s) (within : WithinCap s l)
    (taken : FlashSale.step cfg s l = some s') : Capped cfg otpId s' := by
  obtain ⟨coherent, there, counted, bounded, most, inTime⟩ := capped
  have coherent' := (step_coherent coherent taken).1
  have there' : ∀ m view id, s'.views m = some view → view.otp? = some id →
      ∃ otp, s'.server.db.otpCodes.get? id = some otp :=
    fun m view id is read => step_there coherent there taken is read
  -- A comparison that is made within the cap follows few wrong ones.
  have few : (s.attempts otpId : ℕ∞) + (s.counting otpId).encard < maxOtpAttempts →
      wrongs otpId s.history < maxOtpAttempts := by
    intro within
    exact_mod_cast lt_of_le_of_lt counted within
  cases step_counts coherent there bounded taken with
  | quiet history none counting attempts =>
    have same : wrongs otpId s'.history = wrongs otpId s.history := by
      rw [history, wrongs_append, wrongs_none none, Nat.add_zero]
    refine ⟨coherent', there', ?_, ?_, same ▸ most, history ▸ inTime.append none⟩
    · rw [same, attempts, counting]
      exact counted
    · rw [attempts, counting]
      exact bounded
  | right label at_ history counting attempts =>
    subst label
    simp only [WithinCap, at_] at within
    have same : wrongs otpId s'.history = wrongs otpId s.history := by
      simp [history, wrongs, Event.isWrong]
    refine ⟨coherent', there', ?_, ?_, same ▸ most, history ▸ inTime.compared (few within)⟩
    · rw [same, attempts, counting]
      exact counted
    · rw [attempts, counting]
      exact bounded
  | wrong label at_ history new counting attempts =>
    subst label
    simp only [WithinCap, at_] at within
    have more : wrongs otpId s'.history = wrongs otpId s.history + 1 := by
      simp [history, wrongs, Event.isWrong]
    have card : (s'.counting otpId).encard = (s.counting otpId).encard + 1 := by
      rw [counting, Set.encard_insert_of_notMem new]
    refine ⟨coherent', there', ?_, fun _ => ?_, ?_, history ▸ inTime.compared (few within)⟩
    · rw [more, attempts, card, ← add_assoc]
      exact_mod_cast add_le_add_left counted 1
    · rw [attempts, card, ← add_assoc]
      exact Order.add_one_le_of_lt within
    · rw [more]
      exact few within
  | counted history none old counting attempts =>
    have same : wrongs otpId s'.history = wrongs otpId s.history := by
      rw [history, wrongs_append, wrongs_none none, Nat.add_zero]
    -- One guess fewer is to be counted, and one more is.
    have sum : (s'.attempts otpId : ℕ∞) + (s'.counting otpId).encard =
        s.attempts otpId + (s.counting otpId).encard := by
      rw [attempts, counting, ← Set.encard_sdiff_singleton_add_one old]
      push_cast
      rw [add_assoc, add_comm 1]
    refine ⟨coherent', there', ?_, fun _ => ?_, same ▸ most, history ▸ inTime.append none⟩
    · rw [same, sum]
      exact counted
    · rw [sum]
      exact bounded ⟨_, old⟩
  | lost old label =>
    rcases label with rfl | rfl
    · exact absurd old (within otpId)
    · exact absurd old (within otpId)

/-- When every comparison is within the attempts that are left and every wrong code is
counted, at most `maxOtpAttempts` wrong codes are compared with a code, and fewer have
been when any code is. -/
theorem Run.guess_cap (fresh : Fresh start) (run : Run cfg start trace s)
    (within : ∀ p ∈ trace, WithinCap p.1 p.2) (otpId : Uuid) :
    wrongs otpId s.history ≤ maxOtpAttempts ∧
    ∀ before n dto user equal after,
      s.history = before ++ .compared n dto user otpId equal :: after →
      wrongs otpId before < maxOtpAttempts := by
  have none : ∀ n, start.views n = none := fun n => by
    rw [State.views, fresh.clients n]
    rfl
  have init : Capped cfg otpId start := by
    refine ⟨fresh.coherent, fun n view id is => ?_, ?_, ?_, ?_, ?_⟩
    · rw [none n] at is
      cases is
    · simp [fresh.history, wrongs]
    · rintro ⟨n, dto, is⟩
      rw [none n] at is
      cases is
    · simp [fresh.history, wrongs]
    · intro before n dto user equal after split
      simp [fresh.history] at split
  have capped : Capped cfg otpId s := Lib.Run.invariant_while (Capped cfg otpId) init
    (fun _ _ _ capped within taken => capped.step within taken) run within
  exact ⟨capped.most, capped.inTime⟩

/-- Six clients send wrong codes, and all have been compared before any is counted.
Then a seventh sends the code. -/
def guessingSix : List Label :=
  guessing 0 "0" ++ guessing 1 "1" ++ guessing 2 "2" ++ guessing 3 "3" ++ guessing 4 "4" ++
    guessing 5 "5" ++ verifying 6 8

theorem guessingSix_runs :
    (Lib.execute (step plainCfg) (memberShop .pendingVerification) guessingSix).isSome = true := by
  decide +kernel

/-- Six wrong codes are compared with the code, and then it is accepted. Each was compared
with a row that the others had not counted on yet. -/
theorem guessed_six_times :
    ∃ s, Run plainCfg (memberShop .pendingVerification)
        (Lib.traceOf (step plainCfg) (memberShop .pendingVerification) guessingSix) s ∧
      wrongs 5 s.history = 6 ∧ (grants s.history).countP (Grant.onCode 5) = 1 := by
  have six : wrongs 5 ((Lib.execute (step plainCfg) (memberShop .pendingVerification)
      guessingSix).get guessingSix_runs).history = 6 := by decide +kernel
  have granted : (grants ((Lib.execute (step plainCfg) (memberShop .pendingVerification)
      guessingSix).get guessingSix_runs).history).countP (Grant.onCode 5) = 1 := by decide +kernel
  exact ⟨_, Lib.Run.of_isSome guessingSix_runs, six, granted⟩

/-- The conditions of `WithinCap` when no other client than 0 counts a guess. -/
def aloneWithinCap (p : State × Label) : Bool :=
  match p.2 with
  | .client n _ =>
    match p.1.clients n with
    | .auth (.verifyCompare _ _ otpId _) => decide (p.1.attempts otpId + 1 < maxOtpAttempts)
    | _ => true
  | .clientFail _ => false
  | .clientCrash _ => false
  | _ => true

theorem withinCap_of_alone {p : State × Label} (alone : aloneWithinCap p = true)
    (idle : ∀ n, n ≠ 0 → p.1.clients n = .idle) : WithinCap p.1 p.2 := by
  have one : ∀ otpId, (p.1.counting otpId).encard ≤ 1 := by
    intro otpId
    refine Set.encard_le_one_iff.mpr fun n m counts counts' => ?_
    have zero : ∀ {n}, n ∈ p.1.counting otpId → n = 0 := by
      rintro n ⟨dto, is⟩
      by_contra other
      rw [State.views, idle n other] at is
      cases is
    exact (zero counts).trans (zero counts').symm
  obtain ⟨t, l⟩ := p
  cases l with
  | client n choice =>
    dsimp only [WithinCap, aloneWithinCap] at alone ⊢
    split
    · rename_i dto user otpId otp at_
      rw [at_] at alone
      apply lt_of_le_of_lt (add_le_add_right (one otpId) _)
      exact_mod_cast of_decide_eq_true alone
    · trivial
  | clientFail n => cases alone
  | clientCrash n => cases alone
  | _ => trivial

/-- Client 0 sends a wrong code, which is counted, and then the code. -/
def guessingTwice : List Label := guessing 0 "0" ++ Label.clientSteps 0 1 0 ++ verifying 0 8

theorem guessingTwice_runs :
    (Lib.execute (step plainCfg) (memberShop .pendingVerification) guessingTwice).isSome = true := by
  decide +kernel

theorem guess_cap_twice :
    ∃ s, Run plainCfg (memberShop .pendingVerification)
        (Lib.traceOf (step plainCfg) (memberShop .pendingVerification) guessingTwice) s ∧
      wrongs 5 s.history = 1 ∧ wrongs 5 s.history ≤ maxOtpAttempts := by
  have run := Lib.Run.of_isSome guessingTwice_runs
  have alone : ∀ p ∈ Lib.traceOf (step plainCfg) (memberShop .pendingVerification) guessingTwice,
      aloneWithinCap p = true := by decide +kernel
  have own : ∀ p ∈ Lib.traceOf (step plainCfg) (memberShop .pendingVerification) guessingTwice,
      p.2.client? = some 0 := by decide +kernel
  have idle : ∀ p ∈ Lib.traceOf (step plainCfg) (memberShop .pendingVerification) guessingTwice,
      ∀ n, n ≠ 0 → p.1.clients n = .idle := by
    intro p mem n other
    refine Run.unmoved run (fun q inside is => ?_) p mem
    exact other (Option.some.inj (is.symm.trans (own q inside)))
  have wrong : wrongs 5 ((Lib.execute (step plainCfg) (memberShop .pendingVerification)
      guessingTwice).get guessingTwice_runs).history = 1 := by decide +kernel
  have capped := Run.guess_cap (State.initial_fresh _ _ _) run
    (fun p mem => withinCap_of_alone (alone p mem) (idle p mem)) 5
  exact ⟨_, run, wrong, capped.1⟩

end Guesses

end FlashSale
