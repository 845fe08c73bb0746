/-
# Refresh tokens under concurrent rotations and logouts

`rotate` and `revoke` look a token up with `GET` and delete it with `DEL`, and do not
look at what `DEL` returns. Two rotations past the same lookup both go on to issue a
pair, and a logout can delete a token of which a rotation has already made one.

A token is known by its identifier, which no two pairs share (`NewDraws`). `Consumed` is
what is kept of one token: while it is unused, no pair derives from it; once a rotation or
a logout has deleted it, it never comes back, and whoever rotates it later finds nothing.

* `Run.consumed_once`: in the runs whose rotations delete a token that is still
  stored, and whose logouts delete one of which no pair is on its way, a token is
  rotated at most once, and after a logout that comes first no pair that derives from
  it is valid.
* `rotated_twice`: two calls look a token up before either deletes it.
-/
import FlashSale.Activation

namespace FlashSale

/-! ### Random identifiers -/

/-- The identifier that a step draws for a new pair. -/
def drawn? (cfg : Cfg) (p : State × Label) : Option Text :=
  match p.2 with
  | .client n choice =>
    match p.1.clients n with
    | .auth (.issue _) => some (cfg.randomUuid choice.draw)
    | _ => none
  | _ => none

def drawn (cfg : Cfg) (trace : List (State × Label)) : List Text := trace.filterMap (drawn? cfg)

/-- The identifiers of the pairs that a run issues are new: no two are the same, and
none is stored at the start. -/
structure NewDraws (cfg : Cfg) (start : State) (trace : List (State × Label)) : Prop where
  nodup : (drawn cfg trace).Nodup
  unused : ∀ jti ∈ drawn cfg trace, start.tokens jti = none

/-- An identifier that has been in use. -/
def InUse (cfg : Cfg) (start : State) (trace : List (State × Label)) (jti : Text) : Prop :=
  start.tokens jti ≠ none ∨ jti ∈ drawn cfg trace

/-- The `SET` of an identifier is on its way. -/
def Setting (s : State) (jti : Text) (n : Nat) : Prop :=
  ∃ grant pair hash, s.views n = some (.call (.set grant pair jti hash))

/-- What runs with new identifiers keep of the token store: an identifier is stored once at
most, and what a call is about to delete is what it has found or is gone. -/
structure Keys (cfg : Cfg) (start : State) (trace : List (State × Label)) (s : State) : Prop where
  used : ∀ jti, s.tokens jti ≠ none → InUse cfg start trace jti
  setting : ∀ n jti, Setting s jti n → InUse cfg start trace jti ∧ s.tokens jti = none ∧
    ∀ m, Setting s jti m → m = n
  deleting : ∀ n use token jti session,
    s.views n = some (.call (.del use token jti session)) →
      (∃ rawPart, splitToken token = some (jti, rawPart)) ∧ InUse cfg start trace jti ∧
      (∀ m, ¬ Setting s jti m) ∧ (s.tokens jti = none ∨ s.tokens jti = some session)

/-- An identifier that has been deleted and is not stored again. -/
structure Gone (cfg : Cfg) (start : State) (trace : List (State × Label)) (s : State)
    (jti : Text) : Prop where
  used : InUse cfg start trace jti
  absent : s.tokens jti = none
  unset : ∀ n, ¬ Setting s jti n

section Keys

variable {cfg : Cfg} {start s s' : State} {l : Label} {trace : List (State × Label)} {jti : Text}

theorem drawn_snoc (p : State × Label) :
    drawn cfg (trace ++ [p]) = drawn cfg trace ++ (drawn? cfg p).toList := by
  rw [drawn, List.filterMap_append]
  cases is : drawn? cfg p <;> simp [is, drawn]

theorem InUse.snoc (used : InUse cfg start trace jti) (p : State × Label) :
    InUse cfg start (trace ++ [p]) jti := by
  rcases used with stored | mem
  · exact Or.inl stored
  · exact Or.inr (drawn_snoc p ▸ List.mem_append_left _ mem)

theorem NewDraws.prefix {p : State × Label} (new : NewDraws cfg start (trace ++ [p])) :
    NewDraws cfg start trace := by
  obtain ⟨nodup, unused⟩ := new
  rw [drawn_snoc] at nodup unused
  exact ⟨(List.nodup_append.mp nodup).1, fun jti mem => unused jti (List.mem_append_left _ mem)⟩

/-- An identifier that a step draws has not been in use. -/
theorem NewDraws.not_used {p : State × Label} (new : NewDraws cfg start (trace ++ [p]))
    (draws : drawn? cfg p = some jti) : ¬ InUse cfg start trace jti := by
  obtain ⟨nodup, unused⟩ := new
  rw [drawn_snoc, draws] at nodup unused
  rintro (stored | mem)
  · exact stored (unused jti (List.mem_append_right _ (List.mem_singleton.mpr rfl)))
  · exact (List.nodup_append.mp nodup).2.2 jti mem jti (List.mem_singleton.mpr rfl) rfl

/-- A `SET` on its way was on its way before, or has just been sent. -/
theorem step_setting (taken : step cfg s l = some s') {n : Nat} (setting : Setting s' jti n) :
    Setting s jti n ∨ (drawn? cfg (s, l) = some jti ∧ ∃ choice, l = .client n choice) := by
  obtain ⟨grant, pair, hash, is⟩ := setting
  rcases step_view taken is with old | ⟨events, move⟩
  · exact Or.inl ⟨grant, pair, hash, old⟩
  · generalize at_ : s.views n = view, after : some (AuthView.call _) = next, s'.tokens = tokens at move
    cases move with
    | asks starts => cases starts <;> cases after
    | ends _ _ => cases after
    | verified => cases after
    | commands done => cases done <;> cases after
    | @goes choice call next events goes =>
      cases goes with
      | @issues grant =>
        cases after
        refine Or.inr ⟨?_, choice, rfl⟩
        simp [drawn?, Client.view_call at_]
      | _ => cases after

/-- A call that goes on to `DEL` has found the session stored. -/
theorem AuthMove.looks {n : Nat} {view : Option AuthView} {use : TokenUse} {token : Text}
    {session : Session} {tokens : Text → Option Session} {events : List Event}
    (move : AuthMove cfg s n l view (some (.call (.del use token jti session))) tokens events) :
    (∃ rawPart, splitToken token = some (jti, rawPart)) ∧ s.tokens jti = some session := by
  generalize after : some (AuthView.call _) = next at move
  cases move with
  | asks starts => cases starts <;> cases after
  | ends _ _ => cases after
  | verified => cases after
  | commands done => cases done <;> cases after
  | goes goes =>
    cases goes with
    | @gets use token jti rawPart session split stored hash =>
      cases after
      exact ⟨⟨rawPart, split⟩, (Option.filter_eq_some_iff.mp stored).1⟩
    | _ => cases after

/-- A logout that has deleted its token was about to. -/
theorem AuthMove.revokes {n : Nat} {view : Option AuthView} {token : Text}
    {tokens : Text → Option Session} {events : List Event}
    (move : AuthMove cfg s n l view (some (.call (.revoked token))) tokens events) :
    ∃ jti session, view = some (.call (.del .revoke token jti session)) ∧ l = .command n := by
  generalize after : some (AuthView.call _) = next at move
  cases move with
  | asks starts => cases starts <;> cases after
  | ends _ _ => cases after
  | verified => cases after
  | @commands call next tokens done =>
    cases done with
    | @revokes token' jti session =>
      cases after
      exact ⟨jti, session, rfl, rfl⟩
    | _ => cases after
  | goes goes => cases goes <;> cases after

/-- A deleted identifier stays away. -/
theorem Gone.step (gone : Gone cfg start trace s jti) (new : NewDraws cfg start (trace ++ [(s, l)]))
    (taken : FlashSale.step cfg s l = some s') : Gone cfg start (trace ++ [(s, l)]) s' jti := by
  obtain ⟨used, absent, unset⟩ := gone
  refine ⟨used.snoc _, ?_, fun n setting => ?_⟩
  · cases found : s'.tokens jti with
    | none => rfl
    | some session =>
      rcases step_stored taken found with old | ⟨n, grant, pair, hash, _, at_, -, -⟩
      · rw [absent] at old
        cases old
      · exact absurd ⟨grant, pair, hash, at_⟩ (unset n)
  · rcases step_setting taken setting with old | ⟨draws, -⟩
    · exact unset n old
    · exact new.not_used draws used

/-- An identifier that is stored now and was not has been set by a call that waited. -/
theorem step_stored_new (taken : FlashSale.step cfg s l = some s') {jti : Text}
    (absent : s.tokens jti = none) (stored : s'.tokens jti ≠ none) :
    ∃ n, Setting s jti n ∧ ¬ Setting s' jti n := by
  obtain ⟨session, found⟩ := Option.ne_none_iff_exists'.mp stored
  rcases step_stored taken found with old | ⟨n, grant, pair, hash, _, at_, after, -⟩
  · rw [absent] at old
    cases old
  · refine ⟨n, ⟨grant, pair, hash, at_⟩, ?_⟩
    rintro ⟨_, _, _, is⟩
    rw [after] at is
    cases is

theorem Keys.used_step (keys : Keys cfg start trace s) (taken : FlashSale.step cfg s l = some s')
    {jti : Text} (stored : s'.tokens jti ≠ none) : InUse cfg start (trace ++ [(s, l)]) jti := by
  obtain ⟨session, found⟩ := Option.ne_none_iff_exists'.mp stored
  rcases step_stored taken found with old | ⟨n, grant, pair, hash, _, at_, -, -⟩
  · exact (keys.used jti (by rw [old]; exact Option.some_ne_none session)).snoc _
  · exact (keys.setting n jti ⟨grant, pair, hash, at_⟩).1.snoc _

/-- An identifier that is drawn now was not stored, and no other call waits to set it. -/
theorem Keys.setting_step (keys : Keys cfg start trace s)
    (new : NewDraws cfg start (trace ++ [(s, l)])) (taken : FlashSale.step cfg s l = some s')
    {jti : Text} {n : Nat} (sets : Setting s' jti n) :
    InUse cfg start (trace ++ [(s, l)]) jti ∧ s'.tokens jti = none ∧
      ∀ m, Setting s' jti m → m = n := by
  rcases step_setting taken sets with old | ⟨draws, choice, label⟩
  · obtain ⟨known, none, alone⟩ := keys.setting n jti old
    refine ⟨known.snoc _, ?_, fun m sets' => ?_⟩
    · by_contra stored
      obtain ⟨m, sets', ends⟩ := step_stored_new taken none stored
      rw [alone m sets'] at ends
      exact ends sets
    · rcases step_setting taken sets' with old' | ⟨draws, -⟩
      · exact alone m old'
      · exact absurd known (new.not_used draws)
  · have fresh := new.not_used draws
    have none : s.tokens jti = none := by
      by_contra stored
      exact fresh (keys.used jti stored)
    refine ⟨Or.inr ?_, ?_, fun m sets' => ?_⟩
    · rw [drawn_snoc, draws]
      exact List.mem_append_right _ (List.mem_singleton.mpr rfl)
    · by_contra stored
      obtain ⟨m, sets', -⟩ := step_stored_new taken none stored
      exact fresh (keys.setting m jti sets').1
    · rcases step_setting taken sets' with old' | ⟨-, choice', label'⟩
      · exact absurd (keys.setting m jti old').1 fresh
      · rw [label] at label'
        cases label'
        rfl

/-- While no call waits to set an identifier that has been in use, its entry stays or goes. -/
theorem InUse.entry_step {jti : Text} {session : Session} (known : InUse cfg start trace jti)
    (new : NewDraws cfg start (trace ++ [(s, l)])) (taken : FlashSale.step cfg s l = some s')
    (unset : ∀ m, ¬ Setting s jti m) (entry : s.tokens jti = none ∨ s.tokens jti = some session) :
    (∀ m, ¬ Setting s' jti m) ∧ (s'.tokens jti = none ∨ s'.tokens jti = some session) := by
  constructor
  · intro m sets
    rcases step_setting taken sets with old | ⟨draws, -⟩
    · exact unset m old
    · exact new.not_used draws known
  · cases found : s'.tokens jti with
    | none => exact Or.inl rfl
    | some session' =>
      rcases step_stored taken found with old | ⟨m, grant, pair, hash, _, at_, -, -⟩
      · rw [old] at entry
        rcases entry with none | some
        · cases none
        · exact Or.inr some
      · exact absurd ⟨grant, pair, hash, at_⟩ (unset m)

theorem Keys.step (keys : Keys cfg start trace s) (new : NewDraws cfg start (trace ++ [(s, l)]))
    (taken : FlashSale.step cfg s l = some s') : Keys cfg start (trace ++ [(s, l)]) s' := by
  refine ⟨fun jti stored => keys.used_step taken stored,
    fun n jti sets => keys.setting_step new taken sets, fun n use token jti session is => ?_⟩
  rcases step_view taken is with old | ⟨events, move⟩
  · obtain ⟨split, known, unset, entry⟩ := keys.deleting n use token jti session old
    exact ⟨split, known.snoc _, known.entry_step new taken unset entry⟩
  · obtain ⟨split, stored⟩ := move.looks
    have known : InUse cfg start trace jti := keys.used jti (by simp [stored])
    refine ⟨split, known.snoc _, known.entry_step new taken (fun m sets => ?_) (Or.inr stored)⟩
    rw [(keys.setting m jti sets).2.1] at stored
    cases stored

end Keys

/-! ### Pairs that derive from a token -/

/-- The pair was granted on the token, or on one that was, and so on. -/
def Basis.derives (token : Text) : Basis → Bool
  | .refresh token' earlier => decide (token' = token) || earlier.derives token
  | _ => false

def Grant.derives (token : Text) (grant : Grant) : Bool := grant.basis.derives token

/-- The pair that a rotation of the token returns. -/
def Grant.rotates (token : Text) (grant : Grant) : Bool :=
  match grant.basis with
  | .refresh token' _ => decide (token' = token)
  | _ => false

/-- No pair that derives from the token is stored or on its way. A pair derives from the token
if following its rotations back leads there. -/
structure Underived (token : Text) (s : State) : Prop where
  stored : ∀ jti session, s.tokens jti = some session → session.basis.derives token = false
  pending : ∀ n grant, s.grant? n = some grant → grant.derives token = false

/-- What the pairs that are stored at the start were granted on is not followed back. -/
def Rooted (start : State) : Prop :=
  ∀ jti session token, start.tokens jti = some session → session.basis.derives token = false

/-- A rotation of the token has returned its pair. -/
def Rotated (token : Text) (s : State) : Prop := (grants s.history).countP (Grant.rotates token) ≠ 0

/-- A `DEL` finds the token that was looked up: that of a rotation always, that of a
logout unless a rotation has returned, or no pair derives from the token. -/
def DeletesStored (s : State) : Label → Prop
  | .command n =>
    match s.clients n with
    | .auth (.del .rotate _ jti _) => s.tokens jti ≠ none
    | .auth (.del .revoke token jti _) => s.tokens jti ≠ none ∨ Rotated token s ∨ Underived token s
    | _ => True
  | _ => True

/-- The token has been deleted. -/
structure Deleted (cfg : Cfg) (start : State) (trace : List (State × Label)) (s : State)
    (token : Text) : Prop where
  gone : ∃ jti rawPart, splitToken token = some (jti, rawPart) ∧ Gone cfg start trace s jti

section Derived

variable {cfg : Cfg} {start s s' : State} {l : Label} {trace : List (State × Label)} {token : Text}

theorem Grant.derives_of_rotates {grant : Grant} (is : grant.rotates token = true) :
    grant.derives token = true := by
  obtain ⟨request, user, basis⟩ := grant
  cases basis with
  | refresh token' earlier =>
    have same : token' = token := of_decide_eq_true is
    simp [Grant.derives, Basis.derives, same]
  | _ => cases is

/-- The pair that a step brings on its way derives from the token if the step deletes
the token itself for a rotation. -/
theorem DeletesStored.begins (keys : Keys cfg start trace s) (stored : DeletesStored s l)
    (under : Underived token s) {n : Nat} {grant : Grant} (begins : Begins s l n grant)
    (derives : grant.derives token = true) :
    ∃ jti session, s.clients n = .auth (.del .rotate token jti session) ∧ l = .command n := by
  cases begins with
  | login => cases derives
  | verifies _ => cases derives
  | @rotates token' jti session at_ label =>
    by_cases same : token' = token
    · subst same
      exact ⟨jti, session, at_, label⟩
    · -- The session is the one stored, and derives from other tokens only.
      have view : s.views n = some (.call (.del .rotate token' jti session)) := by
        rw [State.views, at_]
        rfl
      have there : s.tokens jti ≠ none := by
        rw [label, DeletesStored, at_] at stored
        exact stored
      rcases (keys.deleting n .rotate token' jti session view).2.2.2 with none | some
      · exact absurd none there
      · have other := under.stored jti session some
        simp [Grant.derives, Basis.derives, same, other] at derives

/-- Where no pair derives from a token, none does after a step that does not rotate it. -/
theorem Underived.step (under : Underived token s) (keys : Keys cfg start trace s)
    (stored : DeletesStored s l) (taken : FlashSale.step cfg s l = some s')
    (not : ∀ n jti session, s.clients n = .auth (.del .rotate token jti session) → l ≠ .command n) :
    Underived token s' := by
  constructor
  · intro jti session found
    rcases step_stored taken found with old | ⟨n, grant, pair, hash, expiresAt, at_, -, rfl⟩
    · exact under.stored jti session old
    · exact under.pending n grant (by rw [State.grant?, at_]; rfl)
  · intro n grant on
    cases is : grant.derives token with
    | false => rfl
    | true =>
      cases (step_grantsOf taken : GrantsOf (Grant.derives token) s l s') with
      | fewer on' _ =>
        rw [under.pending n grant (on' n grant is on)] at is
        cases is
      | returns _ _ on' _ =>
        rw [under.pending n grant (on' n grant on).2] at is
        cases is
      | begins is' begins _ _ =>
        obtain ⟨jti, session, at_, label⟩ := stored.begins keys under begins is'
        exact absurd label (not _ jti session at_)

/-- A step returns no pair that derives from a token when none is on its way. -/
theorem Underived.returns (under : Underived token s) (taken : FlashSale.step cfg s l = some s')
    {events : List Event} (history : s'.history = s.history ++ events) :
    (grants events).countP (Grant.derives token) = 0 := by
  rw [List.countP_eq_zero]
  intro grant mem
  obtain ⟨e, mem', is⟩ := List.mem_filterMap.mp mem
  cases e with
  | granted n grant' =>
    cases is
    obtain ⟨choice, pair, -, at_⟩ := step_granted taken history mem'
    have on : s.grant? n = some grant := by
      rw [State.grant?, State.views, at_]
      rfl
    rw [under.pending n grant on]
    exact Bool.false_ne_true
  | _ => cases is

theorem Deleted.step (deleted : Deleted cfg start trace s token)
    (new : NewDraws cfg start (trace ++ [(s, l)])) (taken : FlashSale.step cfg s l = some s') :
    Deleted cfg start (trace ++ [(s, l)]) s' token := by
  obtain ⟨jti, rawPart, split, gone⟩ := deleted.gone
  exact ⟨jti, rawPart, split, gone.step new taken⟩

/-- A `DEL` of a deleted token does not find it. -/
theorem Deleted.absent (deleted : Deleted cfg start trace s token) (keys : Keys cfg start trace s)
    {n : Nat} {use : TokenUse} {jti : Text} {session : Session}
    (at_ : s.clients n = .auth (.del use token jti session)) : s.tokens jti = none := by
  obtain ⟨jti', rawPart, split, gone⟩ := deleted.gone
  have view : s.views n = some (.call (.del use token jti session)) := by
    rw [State.views, at_]
    rfl
  obtain ⟨rawPart', split'⟩ := (keys.deleting n use token jti session view).1
  rw [split] at split'
  cases split'
  exact gone.absent

/-- A `DEL` deletes. -/
theorem Keys.deletes (keys : Keys cfg start trace s) (taken : FlashSale.step cfg s l = some s')
    {n : Nat} {use : TokenUse} {jti : Text} {session : Session}
    (at_ : s.clients n = .auth (.del use token jti session)) (label : l = .command n) :
    Deleted cfg start (trace ++ [(s, l)]) s' token := by
  have view : s.views n = some (.call (.del use token jti session)) := by
    rw [State.views, at_]
    rfl
  obtain ⟨⟨rawPart, split⟩, used, unset, -⟩ := keys.deleting n use token jti session view
  refine ⟨jti, rawPart, split, used.snoc _, ?_, fun m setting => ?_⟩
  · subst label
    cases step_cases taken with
    | command at_' sent =>
      rw [at_] at at_'
      cases at_'
      cases AuthCall.commands sent <;> simp
    | start start _ label => cases start <;> cases label
  · rcases step_setting taken setting with old | ⟨-, choice, is⟩
    · exact unset m old
    · rw [label] at is
      cases is

end Derived

/-! ### At most one use -/

/-- What runs in which each `DEL` finds its token keep of a token: it is unused and nothing
derives from it, or it has been deleted for good. -/
structure Consumed (cfg : Cfg) (token : Text) (start : State) (trace : List (State × Label))
    (s : State) : Prop where
  keys : Keys cfg start trace s
  single : SingleGrant (Grant.rotates token) s
  unused : (NoGrant (Grant.rotates token) s ∧ Underived token s) ∨ Deleted cfg start trace s token
  /-- a logout that has deleted the token -/
  revoking : ∀ n, s.clients n = .auth (.revoked token) →
    Rotated token s ∨ (Underived token s ∧ Deleted cfg start trace s token)
  /-- a logout that has returned -/
  revoked : ∀ before n after, s.history = before ++ .revoked n token :: after →
    (grants before).countP (Grant.rotates token) = 0 →
    (Underived token s ∧ Deleted cfg start trace s token) ∧
      (grants after).countP (Grant.derives token) = 0

section Consumed

variable {cfg : Cfg} {start s s' : State} {l : Label} {trace : List (State × Label)} {token : Text}

/-- A step that does not rotate a token that has been deleted. -/
theorem Deleted.not_rotated (deleted : Deleted cfg start trace s token)
    (keys : Keys cfg start trace s) (stored : DeletesStored s l) {n : Nat} {jti : Text}
    {session : Session} (at_ : s.clients n = .auth (.del .rotate token jti session)) :
    l ≠ .command n := by
  intro label
  rw [label, DeletesStored, at_] at stored
  exact stored (deleted.absent keys at_)

/-- A step that returns from a logout. -/
theorem step_revoked (taken : FlashSale.step cfg s l = some s') {events : List Event}
    (history : s'.history = s.history ++ events) {n : Nat} (mem : .revoked n token ∈ events) :
    ∃ choice, l = .client n choice ∧ s.clients n = .auth (.revoked token) :=
  step_returns taken history mem

theorem step_appends (taken : FlashSale.step cfg s l = some s') :
    ∃ events, s'.history = s.history ++ events := by
  obtain ⟨events, history, -⟩ := step_events taken
  exact ⟨events, history⟩

theorem Rotated.step (rotated : Rotated token s) (taken : FlashSale.step cfg s l = some s') :
    Rotated token s' := by
  obtain ⟨events, history⟩ := step_appends taken
  rw [Rotated, history, grants_append, List.countP_append]
  exact fun zero => rotated (Nat.eq_zero_of_add_eq_zero_right zero)

/-- What a logout has closed stays closed. -/
theorem Consumed.closed_step (consumed : Consumed cfg token start trace s)
    (new : NewDraws cfg start (trace ++ [(s, l)])) (stored : DeletesStored s l)
    (taken : FlashSale.step cfg s l = some s')
    (closed : Underived token s ∧ Deleted cfg start trace s token) :
    Underived token s' ∧ Deleted cfg start (trace ++ [(s, l)]) s' token := by
  obtain ⟨under, deleted⟩ := closed
  constructor
  · exact under.step consumed.keys stored taken fun n jti session at_ =>
      deleted.not_rotated consumed.keys stored at_
  · exact deleted.step new taken

/-- A token is unused until a rotation of it deletes it. -/
theorem Consumed.unused_step (consumed : Consumed cfg token start trace s)
    (new : NewDraws cfg start (trace ++ [(s, l)])) (stored : DeletesStored s l)
    (taken : FlashSale.step cfg s l = some s') :
    (NoGrant (Grant.rotates token) s' ∧ Underived token s') ∨
      Deleted cfg start (trace ++ [(s, l)]) s' token := by
  have keys := consumed.keys
  rcases consumed.unused with ⟨no, under⟩ | deleted
  · by_cases here : ∃ n jti session, s.clients n = .auth (.del .rotate token jti session) ∧
      l = .command n
    · obtain ⟨n, jti, session, at_, label⟩ := here
      exact Or.inr (keys.deletes taken at_ label)
    · refine Or.inl ⟨no.step taken fun n grant begins => ?_,
        under.step keys stored taken fun n jti session at_ label =>
          here ⟨n, jti, session, at_, label⟩⟩
      cases rotates : grant.rotates token with
      | false => rfl
      | true =>
        have derives := Grant.derives_of_rotates rotates
        obtain ⟨jti, session, at_, label⟩ := stored.begins keys under begins derives
        exact absurd ⟨n, jti, session, at_, label⟩ here
  · exact Or.inr (deleted.step new taken)

/-- A logout that has deleted the token was before its rotation, or after its answer. -/
theorem Consumed.revoking_step (consumed : Consumed cfg token start trace s)
    (new : NewDraws cfg start (trace ++ [(s, l)])) (stored : DeletesStored s l)
    (taken : FlashSale.step cfg s l = some s') {n : Nat}
    (at_ : s'.clients n = .auth (.revoked token)) :
    Rotated token s' ∨ (Underived token s' ∧ Deleted cfg start (trace ++ [(s, l)]) s' token) := by
  have keys := consumed.keys
  have is : s'.views n = some (.call (.revoked token)) := by
    rw [State.views, at_]
    rfl
  rcases step_view taken is with old | ⟨events, move⟩
  · rcases consumed.revoking n (Client.view_call old) with rotated | both
    · exact Or.inl (rotated.step taken)
    · exact Or.inr (consumed.closed_step new stored taken both)
  · obtain ⟨jti, session, before, label⟩ := move.revokes
    have here := Client.view_call before
    have allowed : s.tokens jti ≠ none ∨ Rotated token s ∨ Underived token s := by
      rw [label, DeletesStored, here] at stored
      exact stored
    have deleted := keys.deletes taken here label
    have under : Underived token s → Underived token s' := fun under =>
      under.step keys stored taken fun m jti' session' at_' label' => by
        rw [label] at label'
        cases label'
        rw [here] at at_'
        cases at_'
    rcases allowed with there | rotated | none
    · rcases consumed.unused with ⟨-, none⟩ | gone
      · exact Or.inr ⟨under none, deleted⟩
      · exact absurd (gone.absent keys here) there
    · exact Or.inl (rotated.step taken)
    · exact Or.inr ⟨under none, deleted⟩

/-- After a logout that has returned, no pair that derives from the token is returned. -/
theorem Consumed.revoked_step (consumed : Consumed cfg token start trace s)
    (new : NewDraws cfg start (trace ++ [(s, l)])) (stored : DeletesStored s l)
    (taken : FlashSale.step cfg s l = some s') {before after : List Event} {n : Nat}
    (split : s'.history = before ++ .revoked n token :: after)
    (zero : (grants before).countP (Grant.rotates token) = 0) :
    (Underived token s' ∧ Deleted cfg start (trace ++ [(s, l)]) s' token) ∧
      (grants after).countP (Grant.derives token) = 0 := by
  obtain ⟨events, history⟩ := step_appends taken
  rw [history] at split
  rcases added_cases split with ⟨mid, old, rfl⟩ | ⟨mid, here, rfl⟩
  · obtain ⟨both, none⟩ := consumed.revoked before n mid old zero
    refine ⟨consumed.closed_step new stored taken both, ?_⟩
    rw [grants_append, List.countP_append, none, both.1.returns taken history]
  · -- The logout returns in this step.
    have mem : .revoked n token ∈ events := here ▸ List.mem_append_right _ List.mem_cons_self
    obtain ⟨choice, label, at_⟩ := step_revoked taken history mem
    rw [grants_append, List.countP_append] at zero
    rcases consumed.revoking n at_ with rotated | both
    · exact absurd (Nat.eq_zero_of_add_eq_zero_right zero) rotated
    · refine ⟨consumed.closed_step new stored taken both, ?_⟩
      have none := both.1.returns taken history
      rw [here, grants_append, List.countP_append] at none
      exact Nat.eq_zero_of_add_eq_zero_left none

theorem Consumed.step (consumed : Consumed cfg token start trace s)
    (new : NewDraws cfg start (trace ++ [(s, l)])) (stored : DeletesStored s l)
    (taken : FlashSale.step cfg s l = some s') :
    Consumed cfg token start (trace ++ [(s, l)]) s' := by
  constructor
  · exact consumed.keys.step new taken
  · refine consumed.single.step taken fun n grant begins rotates => ?_
    rcases consumed.unused with ⟨no, -⟩ | deleted
    · exact no
    · cases begins with
      | login => cases rotates
      | verifies _ => cases rotates
      | @rotates token' jti session at_ label =>
        obtain rfl : token' = token := of_decide_eq_true rotates
        exact absurd label (deleted.not_rotated consumed.keys stored at_)
  · exact consumed.unused_step new stored taken
  · intro n at_
    exact consumed.revoking_step new stored taken at_
  · intro before n after split zero
    exact consumed.revoked_step new stored taken split zero

/-- In a run whose rotations and logouts find their token stored when they delete it,
a token is rotated at most once; after a logout before which no rotation has
returned, no pair that derives from the token is stored, on its way or returned. -/
theorem Run.consumed_once (fresh : Fresh start) (rooted : Rooted start)
    (run : Run cfg start trace s) (new : NewDraws cfg start trace)
    (stored : ∀ p ∈ trace, DeletesStored p.1 p.2) (token : Text) :
    (grants s.history).countP (Grant.rotates token) ≤ 1 ∧
    ∀ before n after, s.history = before ++ .revoked n token :: after →
      (grants before).countP (Grant.rotates token) = 0 →
      Underived token s ∧ (grants after).countP (Grant.derives token) = 0 := by
  have idle : ∀ n, start.views n = none := by
    intro n
    rw [State.views, fresh.clients n]
    rfl
  have no : ∀ n grant, start.grant? n ≠ some grant := by
    intro n grant on
    rw [State.grant?, idle n] at on
    cases on
  have init : Consumed cfg token start [] start := by
    constructor
    · constructor
      · intro jti stored
        exact Or.inl stored
      · rintro n jti ⟨grant, pair, hash, is⟩
        rw [idle n] at is
        cases is
      · intro n use token jti session is
        rw [idle n] at is
        cases is
    · refine NoGrant.single ⟨fun n grant on => absurd on (no n grant), ?_⟩
      rw [fresh.history]
      rfl
    · refine Or.inl ⟨⟨fun n grant on => absurd on (no n grant), ?_⟩,
        fun jti session found => rooted jti session token found,
        fun n grant on => absurd on (no n grant)⟩
      rw [fresh.history]
      rfl
    · intro n at_
      rw [fresh.clients n] at at_
      cases at_
    · intro before n after split
      rw [fresh.history] at split
      exact absurd split.symm (List.append_ne_nil_of_right_ne_nil _ (List.cons_ne_nil _ _))
  have consumed : NewDraws cfg start trace → (∀ p ∈ trace, DeletesStored p.1 p.2) →
      Consumed cfg token start trace s := by
    refine run.invariant_along (fun trace s => NewDraws cfg start trace →
      (∀ p ∈ trace, DeletesStored p.1 p.2) → Consumed cfg token start trace s)
      (fun _ _ => init) fun trace s l s' before taken new stored => ?_
    have earlier := before new.prefix fun p mem => stored p (List.mem_append_left _ mem)
    have here := stored (s, l) (List.mem_append_right _ (List.mem_singleton.mpr rfl))
    exact earlier.step new here taken
  obtain ⟨-, single, -, -, revoked⟩ := consumed new stored
  refine ⟨single.most, fun before n after split zero => ?_⟩
  obtain ⟨⟨under, -⟩, none⟩ := revoked before n after split zero
  exact ⟨under, none⟩

end Consumed

/-! ### Members with tokens -/

/-- Client `n` presents a token for a new pair, and looks it up. -/
def refreshing (n : Nat) (token : Text) : List Label :=
  .auth n (.refresh token) :: Label.clientSteps n 1 0

/-- Client `n` presents a token to log out, and looks it up. -/
def loggingOut (n : Nat) (token : Text) : List Label :=
  .auth n (.logout token) :: Label.clientSteps n 1 0

/-- Client `n` deletes the token that it has looked up, and returns a pair of the draw. -/
def rotating (n draw : Nat) : List Label :=
  .command n :: Label.clientSteps n 1 draw ++ .command n :: Label.clientSteps n 1 draw

/-- The refresh token of a draw. -/
def drawnToken (draw : Nat) : Text := drawnUuid draw ++ '.' :: drawnBytes draw

/-- The member logs in, refreshes once, and logs out. -/
def refreshedOnce : List Label :=
  loggingIn 0 7 ++ refreshing 0 (drawnToken 7) ++ rotating 0 8 ++
    loggingOut 0 (drawnToken 8) ++ .command 0 :: Label.clientSteps 0 1 0

theorem refreshedOnce_runs :
    (Lib.execute (step plainCfg) (memberShop .active) refreshedOnce).isSome = true := by
  decide +kernel

/-- A `DEL` finds the token. -/
def deletesStored (p : State × Label) : Bool :=
  match p.2 with
  | .command n =>
    match p.1.clients n with
    | .auth (.del _ _ jti _) => (p.1.tokens jti).isSome
    | _ => true
  | _ => true

theorem deletesStored_sound {s : State} {l : Label} (stored : deletesStored (s, l) = true) :
    DeletesStored s l := by
  cases l with
  | command n =>
    cases client : s.clients n with
    | auth call =>
      cases call with
      | del use token jti session =>
        have there : s.tokens jti ≠ none := by
          simpa [deletesStored, client, Option.isSome_iff_ne_none] using stored
        cases use with
        | rotate => simp [DeletesStored, client, there]
        | revoke => simp [DeletesStored, client, there]
      | _ => simp [DeletesStored, client]
    | _ => simp [DeletesStored, client]
  | _ => trivial

/-- The return of a logout with the token. -/
def Event.endsSession (token : Text) : Event → Bool
  | .revoked _ token' => decide (token' = token)
  | _ => false

theorem consumed_once_refreshed :
    ∃ s, Run plainCfg (memberShop .active)
        (Lib.traceOf (step plainCfg) (memberShop .active) refreshedOnce) s ∧
      (grants s.history).countP (Grant.rotates (drawnToken 7)) = 1 ∧
      (grants s.history).countP (Grant.rotates (drawnToken 8)) ≤ 1 ∧
      Underived (drawnToken 8) s := by
  have run := Lib.Run.of_isSome refreshedOnce_runs
  have new : NewDraws plainCfg (memberShop .active)
      (Lib.traceOf (step plainCfg) (memberShop .active) refreshedOnce) :=
    ⟨by decide +kernel, fun _ _ => rfl⟩
  have stored : ∀ p ∈ Lib.traceOf (step plainCfg) (memberShop .active) refreshedOnce,
      deletesStored p = true := by decide +kernel
  have rotated : (grants ((Lib.execute (step plainCfg) (memberShop .active) refreshedOnce).get
      refreshedOnce_runs).history).countP (Grant.rotates (drawnToken 7)) = 1 := by decide +kernel
  have unrotated : (grants ((Lib.execute (step plainCfg) (memberShop .active) refreshedOnce).get
      refreshedOnce_runs).history).countP (Grant.rotates (drawnToken 8)) = 0 := by decide +kernel
  have ended : ((Lib.execute (step plainCfg) (memberShop .active) refreshedOnce).get
      refreshedOnce_runs).history.any (Event.endsSession (drawnToken 8)) = true := by
    decide +kernel
  obtain ⟨most, closes⟩ := Run.consumed_once (State.initial_fresh _ _ _)
    (fun _ _ _ found => by cases found) run new
    (fun p mem => deletesStored_sound (stored p mem)) (drawnToken 8)
  refine ⟨_, run, rotated, most, ?_⟩
  obtain ⟨e, mem, is⟩ := List.any_eq_true.mp ended
  cases e with
  | revoked n token =>
    obtain rfl : token = drawnToken 8 := of_decide_eq_true is
    obtain ⟨before, after, split⟩ := List.append_of_mem mem
    refine (closes before n after split ?_).1
    rw [split, grants_append, List.countP_append] at unrotated
    exact Nat.eq_zero_of_add_eq_zero_right unrotated
  | _ => cases is

/-- Two calls look the token up before either deletes it. -/
def refreshedTwice : List Label :=
  loggingIn 0 7 ++ refreshing 0 (drawnToken 7) ++ refreshing 1 (drawnToken 7) ++
    rotating 0 8 ++ rotating 1 9

/-- A logout ends between the two commands of a rotation. -/
def refreshedLate : List Label :=
  loggingIn 0 7 ++ refreshing 0 (drawnToken 7) ++ loggingOut 1 (drawnToken 7) ++
    .command 1 :: Label.clientSteps 1 1 0 ++ rotating 0 8

theorem refreshedTwice_runs :
    (Lib.execute (step plainCfg) (memberShop .active) refreshedTwice).isSome = true := by
  decide +kernel

theorem refreshedLate_runs :
    (Lib.execute (step plainCfg) (memberShop .active) refreshedLate).isSome = true := by
  decide +kernel

/-- Both calls return a pair on the token; and a call returns one after a logout with
the token. -/
theorem rotated_twice :
    (∃ s, Run plainCfg (memberShop .active)
        (Lib.traceOf (step plainCfg) (memberShop .active) refreshedTwice) s ∧
      (grants s.history).countP (Grant.rotates (drawnToken 7)) = 2) ∧
    ∃ s, Run plainCfg (memberShop .active)
        (Lib.traceOf (step plainCfg) (memberShop .active) refreshedLate) s ∧
      (s.history.take 3).any (Event.endsSession (drawnToken 7)) = true ∧
      (grants (s.history.take 3)).countP (Grant.rotates (drawnToken 7)) = 0 ∧
      (grants s.history).countP (Grant.rotates (drawnToken 7)) = 1 := by
  have twice : (grants ((Lib.execute (step plainCfg) (memberShop .active) refreshedTwice).get
      refreshedTwice_runs).history).countP (Grant.rotates (drawnToken 7)) = 2 := by decide +kernel
  have late :
      (((Lib.execute (step plainCfg) (memberShop .active) refreshedLate).get
        refreshedLate_runs).history.take 3).any (Event.endsSession (drawnToken 7)) = true ∧
      (grants (((Lib.execute (step plainCfg) (memberShop .active) refreshedLate).get
        refreshedLate_runs).history.take 3)).countP (Grant.rotates (drawnToken 7)) = 0 ∧
      (grants ((Lib.execute (step plainCfg) (memberShop .active) refreshedLate).get
        refreshedLate_runs).history).countP (Grant.rotates (drawnToken 7)) = 1 := by
    decide +kernel
  exact ⟨⟨_, Lib.Run.of_isSome refreshedTwice_runs, twice⟩,
    _, Lib.Run.of_isSome refreshedLate_runs, late⟩

end FlashSale
