/-
# Every effect has its cause

Whatever a worker does in the world, it does for a committed row of the outbox that its
tick has claimed when it was due, and this row announces a committed code, purchase or
sale of which no other row speaks.

* `effecting_worker`: the inversion of a step that makes an effect.
* `Causing.step`: every step keeps what is known of the effects so far.
* `Run.effects_caused`: the cause of each effect of a run.
-/
import FlashSale.Processed
import FlashSale.LifeCycle
import FlashSale.Redelivery

namespace FlashSale

open Lib (Table)

/-- The effect that the delivery of an event is for. -/
def OutboxEvent.effect : OutboxEvent → Option Effect
  | .otpSend _ _ _ _ => some .otpDelivered
  | .purchaseCompleted _ _ _ => some .purchaseNotified
  | .flashSaleCreated _ _ => some .saleNotified
  | .flashSaleSettle _ => some .stockReturned
  | .other _ => none

/-- A tick has claimed the row. -/
def ClaimedIn (history : List Event) (id : Nat) : Prop :=
  ∃ w started rows, .claimed w started rows ∈ history ∧ ∃ c ∈ rows, c.id = id

/-- An effect after a history was made for a row that had been claimed, whose event is
for this effect; stock was returned for a sale that is settled, after its end. -/
structure Caused (db : Db) (before : List Event) (id : Nat) (kind : Effect) : Prop where
  claimed : ClaimedIn before id
  row : ∃ row, db.outbox.get? id = some row ∧ row.event.effect = some kind ∧
    (kind = .stockReturned → row.event.Achieved db)

/-- All effects of a history had their causes before them: the claim by the tick comes earlier
in the history, and the row is committed. -/
def EffectsCaused (db : Db) (history : List Event) : Prop :=
  ∀ before id kind, before ++ [.effect id kind] <+: history → Caused db before id kind

/-- The rows that ticks have claimed were pending, and due when the tick began. -/
def ClaimsDue (history : List Event) : Prop :=
  ∀ w started rows, .claimed w started rows ∈ history → ∀ c ∈ rows,
    c.row.status = .pending ∧ c.row.visibleAt * 1000 ≤ started

/-- What every run keeps: every effect has a row that some tick had claimed when it was
due, and the row tells of what is committed. -/
structure Causing (cfg : Cfg) (s : State) : Prop where
  processing : Processing cfg s
  recorded : ClaimsRecorded s
  due : ClaimsDue s.history
  caused : EffectsCaused s.server.db s.history

section Steps

variable {cfg : Cfg} {s s' : State} {l : Label} {id : Nat} {kind : Effect}

theorem ClaimedIn.append {history : List Event} (claimed : ClaimedIn history id)
    (more : List Event) : ClaimedIn (history ++ more) id := by
  obtain ⟨w, started, rows, mem, c, inside, same⟩ := claimed
  exact ⟨w, started, rows, List.mem_append_left _ mem, c, inside, same⟩

/-- A step that makes an effect is one of a handler call, and the row that it delivers has been
claimed by its tick. -/
theorem effecting_worker (effecting : s.effecting cfg l = some (id, kind)) :
    ∃ w choice started alive row delivery todo done, l = .worker w choice ∧
      s.workers w = .polling started alive (.deliver row delivery todo done) ∧ row.id = id ∧
      delivery.effecting cfg = some kind := by
  cases l with
  | worker w choice =>
    dsimp only [State.effecting] at effecting
    split at effecting
    · rename_i started alive row delivery todo done at_
      obtain ⟨kind', made, eq⟩ := Option.map_eq_some_iff.mp effecting
      cases eq
      exact ⟨w, choice, started, alive, row, delivery, todo, done, rfl, at_, rfl, made⟩
    · cases effecting
  | _ => cases effecting

/-- The handler calls that make an effect in their next step. -/
theorem effecting_delivery {delivery : Delivery} (made : delivery.effecting cfg = some kind) :
    delivery = .notify kind ∨
    (kind = .otpDelivered ∧ ∃ otpId code, delivery = .otpSend otpId code) ∨
    (kind = .stockReturned ∧ ∃ saleId t items, delivery = .settleTx saleId t (.pure (some items))) := by
  cases delivery with
  | notify kind' =>
    cases made
    exact Or.inl rfl
  | otpSend otpId code =>
    dsimp only [Delivery.effecting] at made
    split at made <;> cases made
    exact Or.inr (Or.inl ⟨rfl, otpId, code, rfl⟩)
  | settleTx saleId t body =>
    cases body with
    | pure result =>
      cases result with
      | none => cases made
      | some items =>
        cases made
        exact Or.inr (Or.inr ⟨rfl, saleId, t, items, rfl⟩)
    | _ => cases made
  | _ => cases made

/-- A handler call makes the effect that its event is for. -/
theorem effecting_event {row : OutboxRow} {delivery : Delivery}
    (called : dispatch row = some delivery.call) (made : delivery.effecting cfg = some kind) :
    row.event.effect = some kind := by
  unfold dispatch at called
  rcases effecting_delivery made with rfl | ⟨rfl, otpId, code, rfl⟩ | ⟨rfl, saleId, t, items, rfl⟩
  · cases event : row.event <;> rw [event] at called <;> cases called <;> rfl
  · cases event : row.event <;> rw [event] at called <;> cases called
    rfl
  · cases event : row.event <;> rw [event] at called <;> cases called
    rfl

/-- No handler call notifies anyone of returned stock. -/
theorem dispatch_returned {row : OutboxRow} {delivery : Delivery}
    (called : dispatch row = some delivery.call) : delivery ≠ .notify .stockReturned := by
  rintro rfl
  unfold dispatch at called
  cases event : row.event <;> rw [event] at called <;> cases called

theorem Caused.step {before : List Event} (caused : Caused s.server.db before id kind)
    (coherent : Coherent cfg s) (taken : step cfg s l = some s') :
    Caused s'.server.db before id kind := by
  obtain ⟨claimed, row, found, about, achieved⟩ := caused
  obtain ⟨row', found', event, -⟩ := step_row_kept coherent taken found
  refine ⟨claimed, row', found', by rw [event]; exact about, fun returned => ?_⟩
  rw [event]
  rcases step_atomic coherent taken with ⟨-, same⟩ | ⟨commit, -, happened⟩
  · rw [same]
    exact achieved returned
  · exact (achieved returned).step happened

/-- The effect of a step has its cause. -/
theorem Causing.new (causing : Causing cfg s) (taken : step cfg s l = some s')
    (effecting : s.effecting cfg l = some (id, kind)) {before : List Event}
    (later : s.history <+: before) : Caused s'.server.db before id kind := by
  obtain ⟨processing, recorded, -, -⟩ := causing
  obtain ⟨w, choice, started, alive, row, delivery, todo, done, rfl, at_, rfl, made⟩ :=
    effecting_worker effecting
  obtain ⟨r, found, called⟩ := processing.delivering.row at_
  obtain ⟨r', found', event, -⟩ := step_row_kept processing.coherent taken found
  have about := effecting_event called made
  refine ⟨?_, r', found', by rw [event]; exact about, fun returned => ?_⟩
  · rcases recorded w started alive _ at_ with claim | claimed
    · cases claim
    · obtain ⟨more, rfl⟩ := later
      exact ClaimedIn.append ⟨w, started, _, claimed, row, by simp [TickStage.claimed], rfl⟩ more
  · subst returned
    rcases effecting_delivery made with rfl | ⟨eq, -⟩ | ⟨-, saleId, t, items, rfl⟩
    · exact absurd rfl (dispatch_returned called)
    · cases eq
    · obtain ⟨-, sale, there, settled⟩ := returns_settles processing.coherent at_ taken
      obtain ⟨t', stamped⟩ := Option.ne_none_iff_exists'.mp settled
      rw [event, dispatch_settle called]
      exact ⟨sale, t', there, stamped, (processing.step taken).honest.settled _ _ _ there stamped⟩

theorem ClaimsDue.step (due : ClaimsDue s.history) (coherent : Coherent cfg s)
    (taken : FlashSale.step cfg s l = some s') : ClaimsDue s'.history := by
  obtain ⟨events, added, claims⟩ := step_claims coherent taken
  intro w started rows mem c inside
  rw [added] at mem
  rcases List.mem_append.mp mem with old | new
  · exact due w started rows old c inside
  · exact (claims w started rows new).2.2.due c inside

/-- Every step keeps what is known of the effects so far. The causes of old effects stay, and a
new one has its own. -/
theorem Causing.step (causing : Causing cfg s) (taken : FlashSale.step cfg s l = some s') :
    Causing cfg s' := by
  have coherent := causing.processing.coherent
  refine ⟨causing.processing.step taken, causing.recorded.step coherent taken,
    causing.due.step coherent taken, fun before id kind is => ?_⟩
  obtain ⟨events, added, -⟩ := step_events taken
  rw [added] at is
  rcases prefix_added is with old | ⟨early, late, new, rfl⟩
  · exact (causing.caused before id kind old).step coherent taken
  · refine causing.new taken ?_ (List.prefix_append _ _)
    -- The only effect that the step adds to the history is its own.
    have own := step_effects taken
    rw [added, effects_append] at own
    have mem : (id, kind) ∈ effects events :=
      List.mem_filterMap.mpr ⟨.effect id kind, by rw [new]; simp, rfl⟩
    rw [List.append_cancel_left own, Option.mem_toList] at mem
    exact mem

end Steps

theorem Causing.init {cfg : Cfg} {s : State} (fresh : Fresh s) (empty : NoEvents s.server.db) :
    Causing cfg s := by
  refine ⟨⟨fresh.coherent, empty.announced, ⟨fun saleId _ _ found => ?_, fun id _ _ found => ?_,
    fun id _ found => ?_⟩, fresh.delivering, fun w started alive stage at_ => ?_⟩,
    fun w started alive stage at_ => ?_, fun w started rows mem => ?_, fun before id kind is => ?_⟩
  · cases (empty.sales saleId).symm.trans found
  · cases (empty.outbox id).symm.trans found
  · cases (empty.outbox id).symm.trans found
  · rw [fresh.workers w] at at_
    cases at_
  · rw [fresh.workers w] at at_
    cases at_
  · rw [fresh.history] at mem
    cases mem
  · rw [fresh.history, List.prefix_nil] at is
    simp at is

section Runs

variable {cfg : Cfg} {start s : State} {trace : List (State × Label)}

/-- Every effect of a run was made for a row of the outbox that a tick had claimed before,
pending and due. What the row says is so in the committed rows, no other row speaks of the
same, and a sale whose stock was returned is settled and has ended. -/
theorem Run.effects_caused (fresh : Fresh start) (empty : NoEvents start.server.db)
    (run : Run cfg start trace s) {before : List Event} {id : Nat} {kind : Effect}
    (happened : before ++ [.effect id kind] <+: s.history) :
    (∃ w started rows, .claimed w started rows ∈ before ∧ ∃ c ∈ rows, c.id = id ∧
      c.row.status = .pending ∧ c.row.visibleAt * 1000 ≤ started) ∧
    ∃ row, s.server.db.outbox.get? id = some row ∧ row.event.effect = some kind ∧
      row.event.Describes s.server.db row ∧
      (∀ id' row', s.server.db.outbox.get? id' = some row' →
        row'.event.subject = row.event.subject → id' = id) ∧
      (kind = .stockReturned → row.event.Achieved s.server.db) := by
  have causing : Causing cfg s :=
    Lib.Run.invariant (.init fresh empty) (fun _ _ _ causing taken => Causing.step causing taken) run
  have announced := causing.processing.announced
  obtain ⟨claimed, row, found, about, achieved⟩ := causing.caused before id kind happened
  refine ⟨?_, row, found, about, announced.describes id row found, ?_, achieved⟩
  · obtain ⟨w, started, rows, mem, c, inside, same⟩ := claimed
    obtain ⟨rest, is⟩ := happened
    have inHistory : Event.claimed w started rows ∈ s.history := by
      rw [← is]
      exact List.mem_append_left _ (List.mem_append_left _ mem)
    obtain ⟨pending, due⟩ := causing.due w started rows inHistory c inside
    exact ⟨w, started, rows, mem, c, inside, same, pending, due⟩
  · intro id' row' found' same
    obtain ⟨subject, is⟩ : ∃ subject, row.event.subject = some subject := by
      cases event : row.event with
      | other type => rw [event] at about; cases about
      | _ => exact ⟨_, rfl⟩
    exact announced.once id' id row' row subject found' found (same.trans is) is

theorem effect_prefix {history : List Event} {id : Nat} {kind : Effect}
    (mem : (id, kind) ∈ effects history) : ∃ before, before ++ [.effect id kind] <+: history := by
  obtain ⟨e, inside, is⟩ := List.mem_filterMap.mp mem
  cases e <;> cases is
  obtain ⟨before, later, eq⟩ := List.append_of_mem inside
  exact ⟨before, later, by rw [eq, List.append_assoc]; rfl⟩

theorem effects_caused_settling :
    ∃ s row, Run plainCfg bareShop (Lib.traceOf (step plainCfg) bareShop settling) s ∧
      (2, .stockReturned) ∈ effects s.history ∧ s.server.db.outbox.get? 2 = some row ∧
      row.event.Describes s.server.db row ∧ row.event.Achieved s.server.db := by
  have run := Lib.Run.of_isSome settling_runs
  have made : (2, .stockReturned) ∈ effects ((Lib.execute (step plainCfg) bareShop settling).get
      settling_runs).history := by decide +kernel
  obtain ⟨before, happened⟩ := effect_prefix made
  obtain ⟨-, row, found, -, describes, -, achieved⟩ := Run.effects_caused (State.initial_fresh _ _ _)
    ⟨fun _ => rfl, fun _ => rfl, fun _ => rfl, fun _ => rfl, fun _ => rfl⟩ run happened
  exact ⟨_, row, run, made, found, describes, achieved rfl⟩

end Runs

end FlashSale
