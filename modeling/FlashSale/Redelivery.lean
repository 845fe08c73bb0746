/-
# Redelivered rows and their effects

A row is delivered again when its tick has lost its transaction or its delivery has
failed, and a handler may then repeat its effect. A notification is a line in a log,
and is repeated whenever the row is. A code is sent before it is marked as sent. A
settlement has its own stamp, and finds it.

The steps that let a redelivery repeat an effect are named by `Careful`: a notification in a
tick that is then lost, and a code that was sent and not marked. All other failures,
crashes and lost ticks are harmless.

* `Careful`: the steps after which no redelivery repeats an effect of a row.
* `Once.step`: a careful step keeps that the row has had at most one effect, and
  that after it there cannot be another one.
* `Run.one_effect`: careful runs have at most one effect of a row; for settlements
  every run has.
* `notified_twice`: a tick is lost after it has notified.
-/
import FlashSale.Delivering

namespace FlashSale

open Lib (Table)

/-- The effects of one row. -/
def effectsOf (id : Nat) (history : List Event) : List (Nat × Effect) :=
  (effects history).filter fun e => decide (e.1 = id)

/-! ### Positions -/

/-- The rows among the lines whose delivery has ended normally. -/
def normal (lines : List Line) : List ClaimedRow :=
  (lines.filter fun line => line.result.isOk).map Line.claimed

/-- The rows of a tick whose delivery has ended normally. -/
def TickStage.delivered (stage : TickStage) : List ClaimedRow :=
  normal stage.done ++ match stage with
    | .record row (.ok _) _ _ => [row]
    | _ => []

/-- The worker has notified of row `id` in a tick that still has its transaction. -/
def State.Notified (s : State) (id w : Nat) : Prop :=
  ∃ started stage, s.workers w = .polling started true stage ∧
    ∃ c ∈ stage.delivered, c.id = id ∧ ∃ kind, dispatch c.row = some (.notify kind)

/-- The worker is about to deliver the code of row `id`. -/
def State.Sending (s : State) (id w : Nat) : Prop :=
  ∃ started alive row otpId encryptedCode todo done,
    s.workers w = .polling started alive (.deliver row (.otpSend otpId encryptedCode) todo done) ∧
      row.id = id

/-- The worker has delivered the code of row `id` and has not marked it. -/
def State.Unmarked (s : State) (id w : Nat) : Prop :=
  ∃ started alive row otpId todo done,
    s.workers w = .polling started alive (.deliver row (.otpMark otpId) todo done) ∧ row.id = id

/-- A step after which no redelivery repeats an effect of row `id`: notifications
are made in ticks that have their transaction, and these commit; codes are found
unsent only while no other worker delivers them, and a code that is delivered is
marked. -/
def Careful (cfg : Cfg) (id : Nat) (s : State) : Label → Prop
  | .worker w choice =>
    match s.workers w with
    | .polling _ alive (.deliver row (.notify _) _ _) => row.id = id → alive = true
    | .polling _ _ (.deliver row (.otpFind otpId) _ _) => row.id = id →
      ∀ otp, s.server.db.otpCodes.get? otpId = some otp → otp.sent = false →
        ∀ w', ¬ s.Sending id w' ∧ ¬ s.Unmarked id w'
    | .polling started true (.record row result _ _) => s.Notified id w → ∀ e,
      (plan (.updateOutbox row.id (Line.change cfg ⟨row, result, s.now, choice.jitter⟩))
        (s.env (.tick w) started choice) (s.server.view (.tick w))).answer ≠ .error e
    | _ => True
  | .workerFail w _ => ¬ s.Unmarked id w
  | .loseTick w => ¬ s.Notified id w
  | .workerCrash w => ¬ s.Notified id w ∧ ¬ s.Unmarked id w
  | _ => True

/-! ### Notifications -/

section Notifications

variable {cfg : Cfg} {s s' : State} {id w : Nat} {l : Label}

theorem normal_append (lines more : List Line) :
    normal (lines ++ more) = normal lines ++ normal more := by
  simp [normal]

theorem mem_normal {c : ClaimedRow} {lines : List Line} :
    c ∈ normal lines ↔ ∃ line ∈ lines, line.result = .ok () ∧ line.claimed = c := by
  simp only [normal, List.mem_map, List.mem_filter]
  constructor
  · rintro ⟨line, ⟨mem, ok⟩, rfl⟩
    refine ⟨line, mem, ?_, rfl⟩
    cases result : line.result with
    | ok _ => rfl
    | error message => rw [result] at ok; cases ok
  · rintro ⟨line, mem, ok, rfl⟩
    exact ⟨line, ⟨mem, by rw [ok]; rfl⟩, rfl⟩

theorem normal_claimed {c : ClaimedRow} {stage : TickStage} (mem : c ∈ normal stage.done) :
    c ∈ stage.claimed := by
  obtain ⟨line, inside, -, rfl⟩ := mem_normal.mp mem
  have claimed : line.claimed ∈ stage.done.map Line.claimed := List.mem_map.mpr ⟨line, inside, rfl⟩
  cases stage with
  | claim => cases inside
  | _ => exact List.mem_append_left _ claimed

theorem delivered_claimed {c : ClaimedRow} {stage : TickStage} (mem : c ∈ stage.delivered) :
    c ∈ stage.claimed := by
  rcases List.mem_append.mp mem with old | new
  · exact normal_claimed old
  · split at new
    · cases List.mem_singleton.mp new
      simp [TickStage.claimed]
    · cases new

/-- A row that a live tick delivers is pending, and no live tick has delivered it. -/
theorem Coherent.delivers_new (coherent : Coherent cfg s) {started : Int} {row : ClaimedRow}
    {delivery : Delivery} {todo : List ClaimedRow} {done : List Line}
    (at_ : s.workers w = .polling started true (.deliver row delivery todo done)) :
    (∃ r, s.server.db.outbox.get? row.id = some r ∧ r.status = .pending) ∧
      ∀ w', ¬ s.Notified row.id w' := by
  have safe := coherent.workers w
  rw [at_] at safe
  have mine : row ∈ TickStage.claimed (.deliver row delivery todo done) := by simp [TickStage.claimed]
  obtain ⟨L, holds⟩ := safe.1.holds
  refine ⟨⟨row.row, holds.facts row mine, (safe.1.due row mine).1⟩, ?_⟩
  rintro w' ⟨started', stage', at_', c, mem, same, -⟩
  obtain rfl := coherent.exclusive at_ at_' mine (delivered_claimed mem) same.symm
  rw [at_] at at_'
  cases at_'
  -- The row would stand twice among those that the tick has claimed.
  have twice := safe.1.nodup
  simp only [TickStage.claimed, List.map_append, List.map_cons, List.nodup_append] at twice
  have before : c ∈ normal done := by simpa [TickStage.delivered, TickStage.done] using mem
  obtain ⟨line, inside, -, rfl⟩ := mem_normal.mp before
  exact twice.2.2 _ (List.mem_map.mpr ⟨_, List.mem_map.mpr ⟨line, inside, rfl⟩, rfl⟩) _
    List.mem_cons_self same

/-- A notification stays recorded in its tick until that commits. -/
theorem Notified.step (coherent : Coherent cfg s) (careful : Careful cfg id s l)
    (taken : FlashSale.step cfg s l = some s') (notified : s.Notified id w) :
    s'.Notified id w ∨
      ∃ row, s'.server.db.outbox.get? id = some row ∧ row.status ≠ .pending := by
  have whole := notified
  obtain ⟨started, stage, at_, c, mem, same, called⟩ := notified
  have stays : ∀ stage', s'.workers w = .polling started true stage' → c ∈ stage'.delivered →
      s'.Notified id w := fun stage' at_' mem' => ⟨started, stage', at_', c, mem', same, called⟩
  rcases step_ticks coherent taken w with ⟨unmoved, -⟩ | ticks
  · exact Or.inl (stays stage (unmoved.trans at_) mem)
  · generalize after : s'.workers w = worker at ticks
    rw [at_] at ticks
    cases ticks with
    | claims => cases mem
    | begins =>
      refine Or.inl (stays _ after (List.mem_append_left _ ?_))
      rw [done_beginDelivery]
      simpa [TickStage.delivered, TickStage.done] using mem
    | handles =>
      refine Or.inl (stays _ after (List.mem_append_left _ ?_))
      rw [done_stage]
      simpa [TickStage.delivered, TickStage.done] using mem
    | fails => exact Or.inl (stays _ after mem)
    | @records _ row result todo done jitter =>
      -- The line of the row takes the place of its record.
      refine Or.inl (stays _ after (List.mem_append_left _ ?_))
      rw [TickStage.done, normal_append]
      cases result <;> exact mem
    | loses label =>
      subst label
      exact absurd whole careful
    | @commits _ done choice label =>
      subst label
      apply Or.inr
      rcases step_atomic coherent taken with ⟨none, -⟩ | ⟨commit, committing, happened⟩
      · simp only [State.committing, at_, Worker.committing] at none
        cases none
      · simp only [State.committing, at_, Worker.committing, Option.some.injEq] at committing
        subst committing
        cases happened with
        | ticked spec =>
          have before : c ∈ normal done := by simpa [TickStage.delivered, TickStage.done] using mem
          obtain ⟨line, inside, ok, rfl⟩ := mem_normal.mp before
          refine ⟨_, by rw [← same]; exact spec.changed inside, ?_⟩
          simp [Line.change, ok, OutboxChange.apply]
    | @breaks _ _ choice label failed =>
      subst label
      rcases failed with rfl | ⟨row, result, todo, done, e, rfl, failed⟩
      · cases mem
      · simp only [Careful, at_] at careful
        exact absurd failed (careful whole e)
    | crashes label =>
      subst label
      exact absurd whole careful.1

end Notifications

/-! ### Codes -/

section Codes

variable {cfg : Cfg} {s s' : State} {id w : Nat} {l : Label}

/-- The worker is between finding the code of row `id` unsent and marking it. -/
def State.Busy (s : State) (id w : Nat) : Prop := s.Sending id w ∨ s.Unmarked id w

/-- A step that finds the code of row `id` unsent. -/
def State.Finds (s : State) (id w : Nat) (l : Label) : Prop :=
  ∃ choice started alive row otpId todo done otp, l = .worker w choice ∧
    s.workers w = .polling started alive (.deliver row (.otpFind otpId) todo done) ∧ row.id = id ∧
    s.server.db.otpCodes.get? otpId = some otp ∧ otp.sent = false

theorem Finds.alone (careful : Careful cfg id s l) (finds : s.Finds id w l) (w' : Nat) :
    ¬ s.Busy id w' := by
  obtain ⟨choice, started, alive, row, otpId, todo, done, otp, rfl, at_, same, found, unsent⟩ := finds
  simp only [Careful, at_] at careful
  obtain ⟨sending, unmarked⟩ := careful same otp found unsent w'
  rintro (h | h)
  · exact sending h
  · exact unmarked h

theorem Sending.step (coherent : Coherent cfg s) (taken : FlashSale.step cfg s l = some s')
    (sending : s'.Sending id w) : s.Sending id w ∨ s.Finds id w l := by
  obtain ⟨started, alive, row, otpId, code, todo, done, at_, same⟩ := sending
  cases step_deliver coherent taken at_ with
  | same before _ => exact Or.inl ⟨_, _, _, _, _, _, _, before, same⟩
  | begins called => cases dispatch_call called
  | steps label before continues =>
    cases continues with
    | finds found unsent =>
      exact Or.inr ⟨_, _, _, _, _, _, _, _, label, before, same, found, unsent⟩

theorem Unmarked.step (coherent : Coherent cfg s) (taken : FlashSale.step cfg s l = some s')
    (unmarked : s'.Unmarked id w) : s.Busy id w := by
  obtain ⟨started, alive, row, otpId, todo, done, at_, same⟩ := unmarked
  cases step_deliver coherent taken at_ with
  | same before _ => exact Or.inr ⟨_, _, _, _, _, _, before, same⟩
  | begins called => cases dispatch_call called
  | steps label before continues =>
    cases continues with
    | sends => exact Or.inl ⟨_, _, _, _, _, _, _, before, same⟩

theorem Busy.step (coherent : Coherent cfg s) (taken : FlashSale.step cfg s l = some s')
    (busy : s'.Busy id w) : s.Busy id w ∨ s.Finds id w l := by
  rcases busy with sending | unmarked
  · rcases Sending.step coherent taken sending with before | finds
    · exact Or.inl (Or.inl before)
    · exact Or.inr finds
  · exact Or.inl (Unmarked.step coherent taken unmarked)

theorem Finds.worker {w' : Nat} (finds : s.Finds id w l) (finds' : s.Finds id w' l) : w = w' := by
  obtain ⟨choice, _, _, _, _, _, _, _, label, -⟩ := finds
  obtain ⟨choice', _, _, _, _, _, _, _, label', -⟩ := finds'
  cases label.symm.trans label'
  rfl

/-- A delivered code that is not marked is marked next. -/
theorem Unmarked.marked (coherent : Coherent cfg s) (delivering : Delivering s)
    (careful : Careful cfg id s l) (taken : FlashSale.step cfg s l = some s') {r : OutboxRow} {otpId : Uuid}
    (there : s.server.db.outbox.get? id = some r) (called : dispatch r = some (.otpFind otpId))
    (unmarked : s.Unmarked id w) : s'.Unmarked id w ∨
      ∃ otp, s'.server.db.otpCodes.get? otpId = some otp ∧ otp.sent = true := by
  have whole := unmarked
  obtain ⟨started, alive, row, otpId', todo, done, at_, same⟩ := unmarked
  have carries := delivering w started alive _ at_
  obtain ⟨call, otp, found⟩ := carries.call _ _ _ _ rfl
  obtain ⟨-, r', there', event⟩ := carries.rows row (by simp [TickStage.claimed])
  rw [same, there] at there'
  cases there'
  rw [dispatch_congr event, call] at called
  cases called
  rcases step_ticks coherent taken w with ⟨unmoved, -⟩ | ticks
  · exact Or.inl ⟨started, alive, row, otpId, todo, done, unmoved.trans at_, same⟩
  · generalize after : s'.workers w = worker at ticks
    rw [at_] at ticks
    cases ticks with
    | @handles _ _ _ _ _ _ choice move label ran server _ =>
      apply Or.inr
      change otpMarkStep cfg s w otpId choice = some move at ran
      obtain ⟨⟨answer, srv⟩, ran, eq⟩ := Option.map_eq_some_iff.mp ran
      obtain ⟨-, result⟩ :=
        Lib.Server.auto_cases coherent.sound (coherent.delivery_safe at_) (plan_covered _ _ _) ran
      rcases result with ⟨e, got, -, -⟩ | ⟨ws, u, got, rfl, effect⟩
      · rw [plan_updateSent_error got] at found
        cases found
      · obtain ⟨rfl, -⟩ := plan_updateSent got
        cases eq
        refine ⟨{ otp with sent := true }, ?_, rfl⟩
        rw [server, effect]
        show (s.server.db.otpCodes.modify otpId _).get? otpId = _
        rw [Table.get?_modify_self, found]
        rfl
    | fails label =>
      subst label
      exact absurd whole careful
    | loses => exact Or.inl ⟨started, false, row, otpId, todo, done, after, same⟩
    | breaks label failed =>
      rcases failed with eq | ⟨_, _, _, _, _, eq, -⟩ <;> cases eq
    | stops between => exact absurd rfl (between _ _ _ _)
    | crashes label =>
      subst label
      exact absurd whole careful.2

end Codes

/-! ### One effect -/

/-- A row that has had its effect cannot have another one: the notification is
recorded, the code is marked and nobody delivers it, the sale is settled. -/
def Spent (id : Nat) (s : State) : Prop :=
  ∃ row, s.server.db.outbox.get? id = some row ∧
    match dispatch row with
    | some (.notify _) => row.status ≠ .pending ∨ ∃ w, s.Notified id w
    | some (.otpFind otpId) =>
      ((∃ otp, s.server.db.otpCodes.get? otpId = some otp ∧ otp.sent = true) ∨
        ∃ w, s.Unmarked id w) ∧ ∀ w, ¬ s.Sending id w
    | some (.settleBegin saleId) =>
      ∃ sale, s.server.db.flashSales.get? saleId = some sale ∧ sale.settledAt ≠ none
    | _ => False

/-- What careful runs keep for row `id`: it has had no effect, or one and is spent. At most one
worker is on the way to an effect of it. -/
structure Once (cfg : Cfg) (id : Nat) (s : State) : Prop where
  coherent : Coherent cfg s
  delivering : Delivering s
  single : ∀ w w', s.Busy id w → s.Busy id w' → w = w'
  once : effectsOf id s.history = [] ∨ (effectsOf id s.history).length = 1 ∧ Spent id s

section Steps

variable {cfg : Cfg} {s s' : State} {id : Nat} {l : Label}

theorem Spent.step (spent : Spent id s) (coherent : Coherent cfg s) (delivering : Delivering s)
    (careful : Careful cfg id s l) (taken : FlashSale.step cfg s l = some s') : Spent id s' := by
  obtain ⟨row, there, spent⟩ := spent
  obtain ⟨row', there', event, final⟩ := step_row_kept coherent taken there
  refine ⟨row', there', ?_⟩
  rw [dispatch_congr event]
  generalize called : dispatch row = call at spent
  split at spent
  · rcases spent with done | ⟨w, notified⟩
    · exact Or.inl (by rw [final done]; exact done)
    · rcases Notified.step coherent careful taken notified with still | ⟨row'', found, done⟩
      · exact Or.inr ⟨w, still⟩
      · rw [there'] at found
        cases found
        exact Or.inl done
  · obtain ⟨marked, none⟩ := spent
    refine ⟨?_, fun w sending => ?_⟩
    · rcases marked with ⟨otp, found, sent⟩ | ⟨w, unmarked⟩
      · obtain ⟨otp', found', kept⟩ := step_otp_kept coherent taken found
        exact Or.inl ⟨otp', found', kept sent⟩
      · rcases Unmarked.marked coherent delivering careful taken there called unmarked with still | sent
        · exact Or.inr ⟨w, still⟩
        · exact Or.inl sent
    · rcases Sending.step coherent taken sending with before | finds
      · exact none w before
      · rcases marked with ⟨otp, found, sent⟩ | ⟨w', unmarked⟩
        · obtain ⟨_, _, _, claimed, otpId', _, _, otp', -, at_, rfl, found', unsent⟩ := finds
          have carries := delivering w _ _ _ at_
          obtain ⟨-, r, again, event⟩ := carries.rows claimed (by simp [TickStage.claimed])
          rw [there] at again
          cases again
          rw [dispatch_congr event, (carries.call _ _ _ _ rfl).1] at called
          cases called
          rw [found] at found'
          cases found'
          rw [sent] at unsent
          cases unsent
        · exact Finds.alone careful finds w' (Or.inr unmarked)
  · obtain ⟨sale, found, settled⟩ := spent
    rcases step_atomic coherent taken with ⟨-, same⟩ | ⟨commit, -, happened⟩
    · exact ⟨sale, by rw [same]; exact found, settled⟩
    · obtain ⟨sale', found', -, -, kept⟩ := happened.sale_kept found
      exact ⟨sale', found', by rw [kept settled]; exact settled⟩
  · exact spent

/-- The steps that make an effect of a row. -/
inductive Effecting (s : State) (id : Nat) : Label → Prop where
  | notifies {w : Nat} {choice : Choice} {started : Int} {alive : Bool} {row : ClaimedRow}
      {kind : Effect} {todo : List ClaimedRow} {done : List Line} (same : row.id = id)
      (at_ : s.workers w = .polling started alive (.deliver row (.notify kind) todo done)) :
      Effecting s id (.worker w choice)
  | sends {w : Nat} {choice : Choice} (sending : s.Sending id w) : Effecting s id (.worker w choice)
  | returns {w : Nat} {choice : Choice} {started t : Int} {alive : Bool} {row : ClaimedRow}
      {saleId : Uuid} {items : List Unsold} {todo : List ClaimedRow} {done : List Line}
      (same : row.id = id)
      (at_ : s.workers w =
        .polling started alive (.deliver row (.settleTx saleId t (.pure (some items))) todo done)) :
      Effecting s id (.worker w choice)

theorem effecting_cases {kind : Effect} (effecting : s.effecting cfg l = some (id, kind)) :
    Effecting s id l := by
  cases l with
  | worker w choice =>
    dsimp only [State.effecting] at effecting
    split at effecting
    · rename_i started alive row delivery todo done at_
      obtain ⟨kind', effecting, eq⟩ := Option.map_eq_some_iff.mp effecting
      cases eq
      cases delivery with
      | notify kind => exact .notifies rfl at_
      | otpSend otpId code => exact .sends ⟨_, _, _, _, _, _, _, at_, rfl⟩
      | settleTx saleId t body =>
        cases body with
        | pure result =>
          cases result with
          | none => cases effecting
          | some items => exact .returns rfl at_
        | _ => cases effecting
      | _ => cases effecting
    · cases effecting
  | _ => cases effecting

/-- The row of a handler call, with its event. -/
theorem Delivering.row (delivering : Delivering s) {w : Nat} {started : Int} {alive : Bool}
    {row : ClaimedRow} {delivery : Delivery} {todo : List ClaimedRow} {done : List Line}
    (at_ : s.workers w = .polling started alive (.deliver row delivery todo done)) :
    ∃ r, s.server.db.outbox.get? row.id = some r ∧ dispatch r = some delivery.call := by
  have carries := delivering w started alive _ at_
  obtain ⟨-, r, found, event⟩ := carries.rows row (by simp [TickStage.claimed])
  exact ⟨r, found, (dispatch_congr event).trans (carries.call _ _ _ _ rfl).1⟩

/-- The settlement that commits stock returns finds the sale unsettled and leaves it
settled. -/
theorem returns_settles (coherent : Coherent cfg s) {w : Nat} {choice : Choice} {started t : Int}
    {alive : Bool} {row : ClaimedRow} {saleId : Uuid} {items : List Unsold}
    {todo : List ClaimedRow} {done : List Line}
    (at_ : s.workers w =
      .polling started alive (.deliver row (.settleTx saleId t (.pure (some items))) todo done))
    (taken : step cfg s (.worker w choice) = some s') :
    (∀ sale, s.server.db.flashSales.get? saleId = some sale → sale.settledAt = none) ∧
      ∃ sale, s'.server.db.flashSales.get? saleId = some sale ∧ sale.settledAt ≠ none := by
  have committing : s.committing (.worker w choice) = some (.settled saleId t (some items)) := by
    simp only [State.committing, at_]
    cases alive <;> rfl
  rcases step_atomic coherent taken with ⟨none, -⟩ | ⟨commit, is, happened⟩
  · rw [committing] at none
    cases none
  · rw [committing] at is
    cases is
    cases happened with
    | settled spec =>
      generalize s'.server.db = after at spec
      cases spec with
      | settled found open_ _ effect =>
        refine ⟨fun sale there => ?_, ?_⟩
        · rw [found] at there
          cases there
          exact open_
        · rw [effect]
          refine ⟨_, Table.get?_modify_of_some found, ?_⟩
          simp

/-- No effect is possible any more. -/
theorem Spent.excludes (spent : Spent id s) (coherent : Coherent cfg s) (delivering : Delivering s)
    (careful : Careful cfg id s l) (taken : FlashSale.step cfg s l = some s') : ¬ Effecting s id l := by
  obtain ⟨row, there, spent⟩ := spent
  intro effecting
  cases effecting with
  | @notifies w choice started alive claimed kind todo done same at_ =>
    simp only [Careful, at_] at careful
    obtain rfl := careful same
    subst same
    obtain ⟨r, found, called⟩ := delivering.row at_
    rw [there] at found
    cases found
    obtain ⟨⟨r, found, pending⟩, none⟩ := coherent.delivers_new at_
    rw [there] at found
    cases found
    rw [called] at spent
    rcases spent with done | ⟨w', notified⟩
    · exact done pending
    · exact none w' notified
  | @sends w choice sending =>
    have whole := sending
    obtain ⟨_, _, claimed, _, _, _, _, at_, rfl⟩ := sending
    obtain ⟨r, found, called⟩ := delivering.row at_
    rw [there] at found
    cases found
    rw [called] at spent
    exact spent.2 w whole
  | @returns w choice started t alive claimed saleId items todo done same at_ =>
    subst same
    obtain ⟨r, found, called⟩ := delivering.row at_
    rw [there] at found
    cases found
    rw [called] at spent
    obtain ⟨sale, there, settled⟩ := spent
    exact settled ((returns_settles coherent at_ taken).1 sale there)

/-- An effect spends the row. -/
theorem Effecting.spends {kind : Effect} (effecting : s.effecting cfg l = some (id, kind))
    (coherent : Coherent cfg s) (delivering : Delivering s)
    (single : ∀ w w', s.Busy id w → s.Busy id w' → w = w') (careful : Careful cfg id s l)
    (taken : step cfg s l = some s') : Spent id s' := by
  -- The row after the step, with the call that its event leads to.
  have row_after : ∀ {w started alive row delivery todo done}, row.id = id →
      s.workers w = .polling started alive (.deliver row delivery todo done) →
      ∃ r, s'.server.db.outbox.get? id = some r ∧ dispatch r = some delivery.call := by
    rintro w started alive row delivery todo done rfl at_
    obtain ⟨r, found, called⟩ := delivering.row at_
    obtain ⟨r', found', event, -⟩ := step_row_kept coherent taken found
    exact ⟨r', found', (dispatch_congr event).trans called⟩
  cases effecting_cases effecting with
  | @notifies w choice started alive row kind todo done same at_ =>
    obtain ⟨r, found, called⟩ := row_after same at_
    refine ⟨r, found, ?_⟩
    rw [called]
    simp only [Careful, at_] at careful
    obtain rfl := careful same
    have call := ((delivering w started true _ at_).call _ _ _ _ rfl).1
    cases step_cases taken with
    | start start _ label => cases start <;> cases label
    | worker ran =>
      rw [at_] at ran
      cases ran
      exact Or.inr ⟨w, started, _, State.moveWorker_self _ _ _, row, by
        simp [TickStage.delivered, Handled.stage, State.goOn], same, kind, call⟩
  | @sends w choice sending =>
    have whole := sending
    obtain ⟨started, alive, row, otpId, code, todo, done, at_, same⟩ := sending
    obtain ⟨r, found, called⟩ := row_after same at_
    refine ⟨r, found, ?_⟩
    rw [called]
    have moved : s'.workers w = .polling started alive (.deliver row (.otpMark otpId) todo done) := by
      cases step_cases taken with
      | start start _ label => cases start <;> cases label
      | worker ran =>
        rw [at_] at ran
        cases ran
        rw [State.moveWorker_self]
        simp only [State.effecting, at_, Delivery.effecting] at effecting
        dsimp only [otpSendStep]
        cases plain : cfg.decrypt code with
        | error message => rw [plain] at effecting; cases effecting
        | ok _ => rfl
    refine ⟨Or.inr ⟨w, _, _, _, _, _, _, moved, same⟩, fun w' sending' => ?_⟩
    rcases Sending.step coherent taken sending' with before | finds
    · obtain rfl := single w w' (Or.inl whole) (Or.inl before)
      obtain ⟨_, _, _, _, _, _, _, at_', -⟩ := sending'
      rw [moved] at at_'
      cases at_'
    · exact Finds.alone careful finds w (Or.inl whole)
  | @returns w choice started t alive row saleId items todo done same at_ =>
    obtain ⟨r, found, called⟩ := row_after same at_
    refine ⟨r, found, ?_⟩
    rw [called]
    exact (returns_settles coherent at_ taken).2

/-- A careful step keeps that the row has had at most one effect, and that after it there cannot
be another one. -/
theorem Once.step (once : Once cfg id s) (careful : Careful cfg id s l)
    (taken : FlashSale.step cfg s l = some s') : Once cfg id s' := by
  obtain ⟨coherent, delivering, single, before⟩ := once
  refine ⟨(step_coherent coherent taken).1, delivering.step coherent taken, fun w w' busy busy' => ?_,
    ?_⟩
  · rcases Busy.step coherent taken busy with old | finds
    · rcases Busy.step coherent taken busy' with old' | finds'
      · exact single w w' old old'
      · exact absurd old (Finds.alone careful finds' w)
    · rcases Busy.step coherent taken busy' with old' | finds'
      · exact absurd old' (Finds.alone careful finds w')
      · exact Finds.worker finds finds'
  · have grown : effectsOf id s'.history = effectsOf id s.history ++
        (s.effecting cfg l).toList.filter fun e => decide (e.1 = id) := by
      rw [effectsOf, step_effects taken, List.filter_append]
      rfl
    have still : Spent id s → Spent id s' := fun spent =>
      spent.step coherent delivering careful taken
    rw [grown]
    cases effecting : s.effecting cfg l with
    | none =>
      rw [Option.toList_none, List.filter_nil, List.append_nil]
      exact before.imp_right fun ⟨one, spent⟩ => ⟨one, still spent⟩
    | some effect =>
      obtain ⟨id', kind⟩ := effect
      by_cases same : id' = id
      · subst same
        rcases before with none | ⟨-, spent⟩
        · refine Or.inr ⟨by simp [none], ?_⟩
          exact Effecting.spends effecting coherent delivering single careful taken
        · exact absurd (effecting_cases effecting) (spent.excludes coherent delivering careful taken)
      · have other : (some (id', kind)).toList.filter (fun e => decide (e.1 = id)) = [] := by
          simp [same]
        rw [other, List.append_nil]
        exact before.imp_right fun ⟨one, spent⟩ => ⟨one, still spent⟩

/-- Every step is careful about a row that is not there or asks for a settlement. -/
theorem careful_of_settlement (delivering : Delivering s)
    (settles : ∀ row, s.server.db.outbox.get? id = some row →
      ∃ saleId, row.event = .flashSaleSettle saleId) : Careful cfg id s l := by
  -- What workers do with the row is a settlement.
  have called : ∀ {c : ClaimedRow} {row : OutboxRow}, s.server.db.outbox.get? c.id = some row →
      row.event = c.row.event → c.id = id → ∃ saleId, dispatch c.row = some (.settleBegin saleId) := by
    rintro c row found event rfl
    obtain ⟨saleId, is⟩ := settles row found
    refine ⟨saleId, ?_⟩
    unfold dispatch
    rw [← event, is]
  have calls : ∀ {w started alive row delivery todo done},
      s.workers w = .polling started alive (.deliver row delivery todo done) → row.id = id →
        ∃ saleId, delivery.call = .settleBegin saleId := by
    intro w started alive row delivery todo done at_ same
    have carries := delivering w started alive _ at_
    obtain ⟨-, r, found, event⟩ := carries.rows row (by simp [TickStage.claimed])
    obtain ⟨saleId, is⟩ := called found event same
    rw [(carries.call _ _ _ _ rfl).1] at is
    exact ⟨saleId, Option.some.inj is⟩
  have unnotified : ∀ w, ¬ s.Notified id w := by
    rintro w ⟨started, stage, at_, c, mem, same, kind, is⟩
    obtain ⟨-, r, found, event⟩ := (delivering w started true stage at_).rows c (delivered_claimed mem)
    obtain ⟨saleId, is'⟩ := called found event same
    cases is.symm.trans is'
  have marked : ∀ w, ¬ s.Unmarked id w := by
    rintro w ⟨started, alive, row, otpId, todo, done, at_, same⟩
    obtain ⟨saleId, is⟩ := calls at_ same
    cases is
  cases l with
  | worker w choice =>
    dsimp only [Careful]
    split
    · rename_i at_
      intro same
      obtain ⟨saleId, is⟩ := calls at_ same
      cases is
    · rename_i at_
      intro same
      obtain ⟨saleId, is⟩ := calls at_ same
      cases is
    · exact fun notified => absurd notified (unnotified w)
    · trivial
  | workerFail w message => exact marked w
  | loseTick w => exact unnotified w
  | workerCrash w => exact ⟨unnotified w, marked w⟩
  | _ => trivial

end Steps

section Runs

variable {cfg : Cfg} {start s : State} {trace : List (State × Label)}

theorem Fresh.once (fresh : Fresh s) (id : Nat) : Once cfg id s := by
  refine ⟨fresh.coherent, fresh.delivering, fun w w' busy => ?_, Or.inl ?_⟩
  · rcases busy with ⟨_, _, _, _, _, _, _, at_, -⟩ | ⟨_, _, _, _, _, _, at_, -⟩ <;>
      (rw [fresh.workers w] at at_; cases at_)
  · rw [fresh.history]
    rfl

theorem Once.bound {id : Nat} (once : Once cfg id s) : (effectsOf id s.history).length ≤ 1 := by
  rcases once.once with none | ⟨one, -⟩
  · rw [none]
    exact Nat.zero_le 1
  · exact one.le

/-- A row has at most one effect in every run whose steps are careful about it, and
a settlement in every run. -/
theorem Run.one_effect (fresh : Fresh start) (run : Run cfg start trace s) (id : Nat) :
    ((∀ p ∈ trace, Careful cfg id p.1 p.2) → (effectsOf id s.history).length ≤ 1) ∧
    ∀ row saleId, s.server.db.outbox.get? id = some row → row.event = .flashSaleSettle saleId →
      (effectsOf id s.history).length ≤ 1 := by
  have bounded : (∀ p ∈ trace, Careful cfg id p.1 p.2) → (effectsOf id s.history).length ≤ 1 :=
    fun careful => Once.bound (Lib.Run.invariant_while (Once cfg id) (fresh.once id)
      (fun _ _ _ once careful taken => once.step careful taken) run careful)
  refine ⟨bounded, fun row saleId found event => ?_⟩
  -- The row was a settlement, or not there, in all states before.
  have settlement : ∀ row, s.server.db.outbox.get? id = some row →
      ∃ saleId, row.event = .flashSaleSettle saleId := by
    intro row' found'
    rw [found] at found'
    cases found'
    exact ⟨saleId, event⟩
  have once : Once cfg id s := by
    clear bounded found event
    induction run with
    | nil => exact fresh.once id
    | @snoc trace s s' l before taken ih =>
      have coherent := Run.coherent fresh before
      have earlier : ∀ row, s.server.db.outbox.get? id = some row →
          ∃ saleId, row.event = .flashSaleSettle saleId := by
        intro row found
        obtain ⟨row', found', same, -⟩ := step_row_kept coherent taken found
        rw [← same]
        exact settlement row' found'
      have once := ih earlier
      exact once.step (careful_of_settlement once.delivering earlier) taken
  exact once.bound

/-- The tick loses its transaction after it has notified of the sale, and the next
tick notifies again. -/
def renotifying : List Label :=
  creating ++ .poll 0 :: Label.workerSteps 0 3 ++ .loseTick 0 :: Label.workerSteps 0 1 ++
    .poll 0 :: Label.workerSteps 0 3

theorem renotifying_runs : (Lib.execute (step plainCfg) bareShop renotifying).isSome = true := by
  decide +kernel

/-- One row has two effects: the first was outside the transaction that was lost, and
nothing remembers it. -/
theorem notified_twice :
    ∃ s, Run plainCfg bareShop (Lib.traceOf (step plainCfg) bareShop renotifying) s ∧
      effectsOf 1 s.history = [(1, .saleNotified), (1, .saleNotified)] :=
  ⟨_, Lib.Run.of_isSome renotifying_runs, by decide +kernel⟩

/-- A step of which no handler fails. Ticks are lost only before they have notified. -/
def calmStep (cfg : Cfg) (p : State × Label) : Bool :=
  match p.2 with
  | .worker w choice =>
    match p.1.workers w with
    | .polling _ alive (.deliver _ (.notify _) _ _) => alive
    | .polling started true (.record row result _ _) =>
      (plan (.updateOutbox row.id (Line.change cfg ⟨row, result, p.1.now, choice.jitter⟩))
        (p.1.env (.tick w) started choice) (p.1.server.view (.tick w))).answer.isOk
    | _ => true
  | .loseTick w =>
    match p.1.workers w with
    | .polling _ _ stage => stage.delivered.all fun c =>
      match dispatch c.row with
      | some (.notify _) => false
      | _ => true
    | .idle => true
  | .workerFail _ _ => false
  | .workerCrash _ => false
  | _ => true

theorem careful_of_calm {id : Nat} {l : Label} (alone : ∀ w, w ≠ 0 → s.workers w = .idle)
    (isCalm : calmStep cfg (s, l) = true) : Careful cfg id s l := by
  cases l with
  | worker w choice =>
    dsimp only [calmStep] at isCalm
    dsimp only [Careful]
    split
    · rename_i at_
      rw [at_] at isCalm
      exact fun _ => isCalm
    · rename_i at_
      -- It is worker 0 that looks the code up, and no other one does anything.
      have zero : w = 0 := by
        by_contra other
        rw [alone w other] at at_
        cases at_
      subst zero
      intro _ _ _ _ w'
      constructor
      · rintro ⟨_, _, _, _, _, _, _, sends, -⟩
        by_cases own : w' = 0
        · rw [own, at_] at sends
          cases sends
        · rw [alone w' own] at sends
          cases sends
      · rintro ⟨_, _, _, _, _, _, marks, -⟩
        by_cases own : w' = 0
        · rw [own, at_] at marks
          cases marks
        · rw [alone w' own] at marks
          cases marks
    · rename_i at_
      rw [at_] at isCalm
      intro _ e failed
      dsimp only at isCalm
      rw [failed] at isCalm
      cases isCalm
    · trivial
  | loseTick w =>
    rintro ⟨started, stage, at_, c, inside, -, kind, notifies⟩
    dsimp only [calmStep] at isCalm
    rw [at_] at isCalm
    have none := List.all_eq_true.mp isCalm c inside
    rw [notifies] at none
    cases none
  | workerFail w message => cases isCalm
  | workerCrash w => cases isCalm
  | _ => trivial

/-- Client 1 registers, and the tick that has delivered the code loses its transaction. A
sale is created and ends, and the next tick claims the row of the code again. -/
def redelivering : List Label :=
  .register 1 ⟨otherMail, passw0rd⟩ :: Label.clientSteps 1 7 9 ++ .poll 0 :: Label.workerSteps 0 5 ++
    .loseTick 0 :: Label.workerSteps 0 1 ++ creating ++ .elapse 1000000 :: .poll 0 ::
    Label.workerSteps 0 16

theorem redelivering_runs : (Lib.execute (step plainCfg) bareShop redelivering).isSome = true := by
  decide +kernel

/-- The code is delivered once, in the first of the two ticks. -/
theorem one_effect_redelivering :
    ∃ s, Run plainCfg bareShop (Lib.traceOf (step plainCfg) bareShop redelivering) s ∧
      effects s.history = [(1, .otpDelivered), (2, .saleNotified), (3, .stockReturned)] ∧
      (∀ id, (effectsOf id s.history).length ≤ 1) ∧ (effectsOf 3 s.history).length ≤ 1 := by
  have run := Lib.Run.of_isSome redelivering_runs
  have isCalm : ∀ p ∈ Lib.traceOf (step plainCfg) bareShop redelivering,
      calmStep plainCfg p = true := by decide +kernel
  have polled : ∀ p ∈ Lib.traceOf (step plainCfg) bareShop redelivering,
      p.2.polledByZero = true := by decide +kernel
  have found : ((Lib.execute (step plainCfg) bareShop redelivering).get
      redelivering_runs).server.db.outbox.get? 3 =
        some ⟨.flashSaleSettle 3, .processed, 0, dayStart + 1000, none, none⟩ := by decide +kernel
  have fresh := State.initial_fresh bareDb 1 (dayStart * 1000)
  exact ⟨_, run, by decide +kernel, fun id => (Run.one_effect fresh run id).1 fun p mem =>
      careful_of_calm (fun w other => Run.other_idle fresh run polled mem other) (isCalm p mem),
    (Run.one_effect fresh run 3).2 _ 3 found rfl⟩

end Runs

end FlashSale
