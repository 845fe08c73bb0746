/-
# `TokenService`, one call at a time

`issuePair`, `rotate` and `revoke` as single steps on the stored refresh tokens, with time
passing between them. A token is any text; it is split at its first dot.

The store knows nothing of who has been given what: it maps the first part of a token to a
user and a hash of the second. `LiveToken` is about the calls of a run alone, and `Agrees`
relates the two: the entries are those of the tokens that were issued and have not been
ended, each with its user, its hash and its end.

* `TokenStore.Run.accepts_live`: a token is accepted exactly while it is live, that is returned
  for the user and since then neither rotated nor revoked nor too old; and a call
  touches no entry but its own and the one that it issues.
* `refresh_steps`: a refresh by itself takes the steps of `Api` to the answer and the
  store of `rotate`.
-/
import FlashSale.RefreshTokens

namespace FlashSale

/-! ### The store -/

/-- The value under `refresh:<jti>`, and when Redis drops it. -/
structure RefreshEntry where
  userId : Uuid
  hash : Text
  expiresAt : Int

/-- The refresh tokens that are stored, by `jti`, at a time in microseconds. An entry is there
until its end, and is dropped without a step. -/
structure TokenStore where
  clock : Int
  entries : Text → Option RefreshEntry

/-- A new token pair, with the `sub` and the `jti` that its access token is signed for. -/
structure IssuedPair where
  userId : Uuid
  jti : Text
  pair : TokenPair
deriving DecidableEq

namespace TokenStore

def empty (clock : Int) : TokenStore := ⟨clock, fun _ => none⟩

def get (store : TokenStore) (jti : Text) : Option RefreshEntry :=
  (store.entries jti).filter fun entry => decide (store.clock < entry.expiresAt)

def set (store : TokenStore) (jti : Text) (entry : RefreshEntry) : TokenStore :=
  { store with entries := Function.update store.entries jti (some entry) }

def del (store : TokenStore) (jti : Text) : TokenStore :=
  { store with entries := Function.update store.entries jti none }

variable (cfg : Cfg) (store : TokenStore)

/-- The lifetime of a refresh token. -/
def ttl : Int := cfg.refreshTtlSeconds * 1000000

/-- A pair is issued with a new identifier, under which the digest of the second part is
stored. -/
def issuePair (userId : Uuid) (draw : Nat) : IssuedPair × TokenStore :=
  let jti := cfg.randomUuid draw
  let rawPart := cfg.randomBytes draw
  (⟨userId, jti, ⟨cfg.sign userId jti (store.clock / 1000), jti ++ '.' :: rawPart⟩⟩,
    store.set jti ⟨userId, cfg.sha256 rawPart, store.clock + ttl cfg⟩)

/-- The user and the `jti` of a token that is valid. -/
def parseAndVerify (token : Text) : Option (Uuid × Text) :=
  match splitToken token with
  | none => none
  | some (jti, rawPart) =>
    match store.get jti with
    | none => none
    | some entry => if cfg.sha256 rawPart = entry.hash then some (entry.userId, jti) else none

/-- A token that is valid is deleted, and a new pair is issued for its user. -/
def rotate (token : Text) (draw : Nat) : Option IssuedPair × TokenStore :=
  match store.parseAndVerify cfg token with
  | none => (none, store)
  | some (userId, jti) =>
    let (issued, store') := (store.del jti).issuePair cfg userId draw
    (some issued, store')

/-- A token that is valid is deleted. Any other is ignored. -/
def revoke (token : Text) : TokenStore :=
  match store.parseAndVerify cfg token with
  | none => store
  | some (_, jti) => store.del jti

end TokenStore

inductive TokenCall where
  | issuePair (userId : Uuid) (draw : Nat)
  | rotate (token : Text) (draw : Nat)
  | revoke (token : Text)
  | elapse (duration : Nat)

/-- The pair that a call returns. -/
def TokenCall.issued (cfg : Cfg) (store : TokenStore) : TokenCall → Option IssuedPair
  | .issuePair userId draw => some (store.issuePair cfg userId draw).1
  | .rotate token draw => (store.rotate cfg token draw).1
  | _ => none

/-- The token that a call ends. -/
def TokenCall.ends? : TokenCall → Option Text
  | .rotate token _ => some token
  | .revoke token => some token
  | _ => none

def TokenStore.step (cfg : Cfg) (store : TokenStore) : TokenCall → Option TokenStore
  | .issuePair userId draw => some (store.issuePair cfg userId draw).2
  | .rotate token draw => some (store.rotate cfg token draw).2
  | .revoke token => some (store.revoke cfg token)
  | .elapse duration => some { store with clock := store.clock + duration }

/-- Calls one after another, from an empty store. -/
abbrev TokenStore.Run (cfg : Cfg) (clock : Int) (trace : List (TokenStore × TokenCall))
    (store : TokenStore) : Prop :=
  Lib.Run (TokenStore.step cfg) (TokenStore.empty clock) trace store

/-! ### Tokens that are live -/

/-- A call of the trace, at `time`, returned the token for the user, and none has
rotated or revoked it since. -/
def IssuedAt (cfg : Cfg) (trace : List (TokenStore × TokenCall)) (userId : Uuid) (token : Text)
    (time : Int) : Prop :=
  ∃ earlier p later issued, trace = earlier ++ p :: later ∧ p.2.issued cfg p.1 = some issued ∧
    issued.userId = userId ∧ issued.pair.refreshToken = token ∧ p.1.clock = time ∧
    ∀ q ∈ later, q.2.ends? ≠ some token

/-- A token is live for a user if it was issued to the user, has been neither rotated nor
revoked since, and is not older than its lifetime. -/
def LiveToken (cfg : Cfg) (trace : List (TokenStore × TokenCall)) (store : TokenStore) (userId : Uuid)
    (token : Text) : Prop :=
  ∃ time, IssuedAt cfg trace userId token time ∧ store.clock < time + TokenStore.ttl cfg

/-- The identifiers that the calls of a trace have drawn. -/
def jtis (cfg : Cfg) (trace : List (TokenStore × TokenCall)) : List Text :=
  trace.filterMap fun p => (p.2.issued cfg p.1).map IssuedPair.jti

/-- The identifiers drawn are new, and have no dot. -/
structure NewJtis (cfg : Cfg) (trace : List (TokenStore × TokenCall)) : Prop where
  nodup : (jtis cfg trace).Nodup
  dotless : ∀ jti ∈ jtis cfg trace, '.' ∉ jti

/-! ### Splitting a token -/

theorem splitToken_cons (c : Char) (token : Text) : splitToken (c :: token) =
    if c = '.' then some ([], token) else (splitToken token).map fun parts => (c :: parts.1, parts.2) := by
  unfold splitToken
  rw [List.span_eq_takeWhile_dropWhile, List.span_eq_takeWhile_dropWhile]
  by_cases dot : c = '.'
  · simp [dot]
  · simp only [List.takeWhile_cons, List.dropWhile_cons, bne_iff_ne, ne_eq, dot, not_false_eq_true,
      if_true, if_false]
    cases token.dropWhile (· != '.') with
    | nil => rfl
    | cons d rest =>
      by_cases dot' : d = '.'
      · subst dot'
        rfl
      · split
        · simp_all
        · split <;> simp_all

theorem splitToken_iff {token jti rawPart : Text} :
    splitToken token = some (jti, rawPart) ↔ token = jti ++ '.' :: rawPart ∧ '.' ∉ jti := by
  induction token generalizing jti with
  | nil => simp [splitToken]
  | cons c token ih =>
    rw [splitToken_cons]
    by_cases dot : c = '.'
    · subst dot
      cases jti with
      | nil => simp [eq_comm]
      | cons d jti =>
        simp only [if_true, Option.some.injEq, Prod.mk.injEq, List.cons_append, List.cons.injEq,
          List.mem_cons, not_or]
        constructor
        · rintro ⟨none, -⟩
          cases none
        · rintro ⟨⟨same, -⟩, other, -⟩
          exact absurd same other
    · cases jti with
      | nil => simp [dot]
      | cons d jti =>
        simp only [dot, if_false, Option.map_eq_some_iff, Prod.exists, Prod.mk.injEq, List.cons.injEq,
          List.cons_append, List.mem_cons, not_or]
        constructor
        · rintro ⟨jti', rawPart', split, ⟨rfl, rfl⟩, rfl⟩
          obtain ⟨rfl, dotless⟩ := ih.mp split
          exact ⟨⟨rfl, rfl⟩, Ne.symm dot, dotless⟩
        · rintro ⟨⟨rfl, rfl⟩, -, dotless⟩
          exact ⟨jti, rawPart, ih.mpr ⟨rfl, dotless⟩, ⟨rfl, rfl⟩, rfl⟩

/-- A token that was made of a `jti` without a dot is split into its two parts. -/
theorem made_inj {jti jti' rawPart rawPart' : Text} (dotless : '.' ∉ jti) (dotless' : '.' ∉ jti')
    (same : jti ++ '.' :: rawPart = jti' ++ '.' :: rawPart') : jti = jti' ∧ rawPart = rawPart' := by
  have split : splitToken (jti ++ '.' :: rawPart) = some (jti, rawPart) :=
    splitToken_iff.mpr ⟨rfl, dotless⟩
  have split' : splitToken (jti ++ '.' :: rawPart) = some (jti', rawPart') :=
    splitToken_iff.mpr ⟨same, dotless'⟩
  rw [split] at split'
  cases split'
  exact ⟨rfl, rfl⟩

/-! ### What is stored -/

namespace TokenStore

section Operations

variable {cfg : Cfg} {store : TokenStore} {jti jti' token : Text} {entry : RefreshEntry} {userId : Uuid}

theorem get_eq_some : store.get jti = some entry ↔
    store.entries jti = some entry ∧ store.clock < entry.expiresAt := by
  simp [get, Option.filter_eq_some_iff]

theorem entries_del_ne (other : jti' ≠ jti) : (store.del jti).entries jti' = store.entries jti' :=
  Function.update_of_ne other _ _

theorem entries_del_self : (store.del jti).entries jti = none := Function.update_self _ _ _

theorem entries_set_ne (other : jti' ≠ jti) :
    (store.set jti entry).entries jti' = store.entries jti' := Function.update_of_ne other _ _

theorem entries_set_self : (store.set jti entry).entries jti = some entry := Function.update_self _ _ _

/-- A token is valid when its `jti` has an entry with the digest of its other part. -/
theorem parseAndVerify_iff : store.parseAndVerify cfg token = some (userId, jti) ↔
    ∃ rawPart entry, token = jti ++ '.' :: rawPart ∧ '.' ∉ jti ∧ store.get jti = some entry ∧
      cfg.sha256 rawPart = entry.hash ∧ entry.userId = userId := by
  unfold parseAndVerify
  constructor
  · intro valid
    cases split : splitToken token with
    | none =>
      rw [split] at valid
      cases valid
    | some parts =>
      obtain ⟨jti', rawPart⟩ := parts
      obtain ⟨is, dotless⟩ := splitToken_iff.mp split
      simp only [split] at valid
      cases found : store.get jti' with
      | none =>
        rw [found] at valid
        cases valid
      | some entry =>
        simp only [found] at valid
        by_cases same : cfg.sha256 rawPart = entry.hash
        · rw [if_pos same] at valid
          cases valid
          exact ⟨rawPart, entry, is, dotless, found, same, rfl⟩
        · rw [if_neg same] at valid
          cases valid
  · rintro ⟨rawPart, entry, is, dotless, found, same, rfl⟩
    rw [splitToken_iff.mpr ⟨is, dotless⟩]
    simp only [found]
    rw [if_pos same]

theorem rotate_invalid {draw : Nat} (invalid : store.parseAndVerify cfg token = none) :
    store.rotate cfg token draw = (none, store) := by
  rw [rotate, invalid]

theorem rotate_valid {draw : Nat} (valid : store.parseAndVerify cfg token = some (userId, jti)) :
    store.rotate cfg token draw = (some ((store.del jti).issuePair cfg userId draw).1,
      ((store.del jti).issuePair cfg userId draw).2) := by
  rw [rotate, valid]

theorem revoke_invalid (invalid : store.parseAndVerify cfg token = none) :
    store.revoke cfg token = store := by
  rw [revoke, invalid]

theorem revoke_valid (valid : store.parseAndVerify cfg token = some (userId, jti)) :
    store.revoke cfg token = store.del jti := by
  rw [revoke, valid]

end Operations

/-- The entries are those of the tokens that were issued for a user at a time and have
not been ended; all `jti` are among those drawn. -/
structure Agrees (cfg : Cfg) (issued : Uuid → Text → Int → Prop) (drawn : List Text)
    (store : TokenStore) : Prop where
  dotless : ∀ jti ∈ drawn, '.' ∉ jti
  drawn : ∀ jti, store.entries jti ≠ none → jti ∈ drawn
  stored : ∀ jti entry, store.get jti = some entry → ∃ rawPart time,
    issued entry.userId (jti ++ '.' :: rawPart) time ∧ entry.hash = cfg.sha256 rawPart ∧
      entry.expiresAt = time + ttl cfg
  issued : ∀ userId token time, issued userId token time → store.clock < time + ttl cfg →
    ∃ jti rawPart, token = jti ++ '.' :: rawPart ∧
      store.entries jti = some ⟨userId, cfg.sha256 rawPart, time + ttl cfg⟩

section Agrees

variable {cfg : Cfg} {issued issued' : Uuid → Text → Int → Prop} {drawn : List Text}
  {store : TokenStore} {jti token : Text} {userId : Uuid}

theorem Agrees.get_dotless (agrees : Agrees cfg issued drawn store) {entry : RefreshEntry}
    (found : store.entries jti = some entry) : '.' ∉ jti := by
  refine agrees.dotless jti (agrees.drawn jti ?_)
  rw [found]
  exact Option.some_ne_none _

/-- A token is valid exactly while it is issued and not too old. -/
theorem Agrees.valid_iff (agrees : Agrees cfg issued drawn store)
    (injective : Function.Injective cfg.sha256) :
    (∃ jti, store.parseAndVerify cfg token = some (userId, jti)) ↔
      ∃ time, issued userId token time ∧ store.clock < time + ttl cfg := by
  constructor
  · rintro ⟨jti, valid⟩
    obtain ⟨rawPart, entry, rfl, -, found, same, rfl⟩ := parseAndVerify_iff.mp valid
    obtain ⟨rawPart', time, was, hash, expires⟩ := agrees.stored jti entry found
    obtain rfl := injective (same.trans hash)
    refine ⟨time, was, ?_⟩
    rw [← expires]
    exact (get_eq_some.mp found).2
  · rintro ⟨time, was, young⟩
    obtain ⟨jti, rawPart, rfl, found⟩ := agrees.issued userId token time was young
    exact ⟨jti, parseAndVerify_iff.mpr ⟨rawPart, ⟨userId, cfg.sha256 rawPart, time + ttl cfg⟩, rfl,
      agrees.get_dotless found, get_eq_some.mpr ⟨found, young⟩, rfl, rfl⟩⟩

theorem Agrees.congr (agrees : Agrees cfg issued drawn store)
    (same : ∀ userId token time, issued' userId token time ↔ issued userId token time) :
    Agrees cfg issued' drawn store := by
  have eq : issued' = issued := by
    funext userId token time
    exact propext (same userId token time)
  rw [eq]
  exact agrees

/-- Time passes. -/
theorem Agrees.elapse (agrees : Agrees cfg issued drawn store) (duration : Nat) :
    Agrees cfg issued drawn { store with clock := store.clock + duration } := by
  obtain ⟨dotless, keys, stored, was⟩ := agrees
  refine ⟨dotless, keys, ?_, ?_⟩
  · intro jti entry found
    obtain ⟨there, young⟩ := get_eq_some.mp found
    refine stored jti entry (get_eq_some.mpr ⟨there, ?_⟩)
    dsimp only at young
    omega
  · intro userId token time is young
    apply was userId token time is
    dsimp only at young
    omega

/-- A token that is not valid is ended. -/
theorem Agrees.ignore (agrees : Agrees cfg issued drawn store)
    (invalid : store.parseAndVerify cfg token = none) :
    Agrees cfg (fun u t time => issued u t time ∧ t ≠ token) drawn store := by
  refine ⟨agrees.dotless, agrees.drawn, ?_, ?_⟩
  · intro jti entry found
    obtain ⟨rawPart, time, was, hash, expires⟩ := agrees.stored jti entry found
    refine ⟨rawPart, time, ⟨was, ?_⟩, hash, expires⟩
    rintro rfl
    have dotless := agrees.get_dotless (get_eq_some.mp found).1
    have valid : store.parseAndVerify cfg (jti ++ '.' :: rawPart) = some (entry.userId, jti) :=
      parseAndVerify_iff.mpr ⟨rawPart, entry, rfl, dotless, found, hash.symm, rfl⟩
    rw [invalid] at valid
    cases valid
  · intro userId token' time is young
    exact agrees.issued userId token' time is.1 young

/-- A token that is valid is ended, with its entry. -/
theorem Agrees.drop (agrees : Agrees cfg issued drawn store)
    (injective : Function.Injective cfg.sha256)
    (valid : store.parseAndVerify cfg token = some (userId, jti)) :
    Agrees cfg (fun u t time => issued u t time ∧ t ≠ token) drawn (store.del jti) := by
  obtain ⟨rawPart, entry, rfl, dotless, found, hash, -⟩ := parseAndVerify_iff.mp valid
  obtain ⟨there, -⟩ := get_eq_some.mp found
  refine ⟨agrees.dotless, ?_, ?_, ?_⟩
  · intro jti' present
    by_cases same : jti' = jti
    · subst same
      exact absurd entries_del_self present
    · rw [entries_del_ne same] at present
      exact agrees.drawn jti' present
  · intro jti' entry' found'
    obtain ⟨there', young⟩ := get_eq_some.mp found'
    by_cases same : jti' = jti
    · subst same
      rw [entries_del_self] at there'
      cases there'
    · rw [entries_del_ne same] at there'
      obtain ⟨rawPart', time, was, hash', expires⟩ :=
        agrees.stored jti' entry' (get_eq_some.mpr ⟨there', young⟩)
      refine ⟨rawPart', time, ⟨was, fun eq => ?_⟩, hash', expires⟩
      exact same (made_inj (agrees.get_dotless there') dotless eq).1
  · rintro userId' token' time ⟨was, other⟩ young
    obtain ⟨jti', rawPart', rfl, found'⟩ := agrees.issued userId' token' time was young
    refine ⟨jti', rawPart', rfl, ?_⟩
    rw [entries_del_ne]
    · exact found'
    · rintro rfl
      rw [there] at found'
      cases found'
      obtain rfl := injective hash
      exact other rfl

/-- A pair is issued under a new `jti`. -/
theorem Agrees.issue (agrees : Agrees cfg issued drawn store) {draw : Nat}
    (new : cfg.randomUuid draw ∉ drawn) (dotless : '.' ∉ cfg.randomUuid draw) :
    Agrees cfg (fun u t time => issued u t time ∨
        (u = userId ∧ t = (store.issuePair cfg userId draw).1.pair.refreshToken ∧ time = store.clock))
      (drawn ++ [cfg.randomUuid draw]) (store.issuePair cfg userId draw).2 := by
  refine ⟨?_, ?_, ?_, ?_⟩
  · intro jti mem
    rcases List.mem_append.mp mem with old | own
    · exact agrees.dotless jti old
    · rw [List.mem_singleton.mp own]
      exact dotless
  · intro jti present
    by_cases same : jti = cfg.randomUuid draw
    · simp [same]
    · rw [issuePair, entries_set_ne same] at present
      exact List.mem_append_left _ (agrees.drawn jti present)
  · intro jti entry found
    obtain ⟨there, young⟩ := get_eq_some.mp found
    by_cases same : jti = cfg.randomUuid draw
    · subst same
      rw [issuePair, entries_set_self] at there
      cases there
      exact ⟨cfg.randomBytes draw, store.clock, Or.inr ⟨rfl, rfl, rfl⟩, rfl, rfl⟩
    · rw [issuePair, entries_set_ne same] at there
      obtain ⟨rawPart, time, was, rest⟩ := agrees.stored jti entry (get_eq_some.mpr ⟨there, young⟩)
      exact ⟨rawPart, time, Or.inl was, rest⟩
  · rintro userId' token' time (was | ⟨rfl, rfl, rfl⟩) young
    · obtain ⟨jti, rawPart, is, found⟩ := agrees.issued userId' token' time was young
      refine ⟨jti, rawPart, is, ?_⟩
      rw [issuePair, entries_set_ne]
      · exact found
      · rintro rfl
        refine new (agrees.drawn _ ?_)
        rw [found]
        exact Option.some_ne_none _
    · exact ⟨cfg.randomUuid draw, cfg.randomBytes draw, rfl, entries_set_self⟩

end Agrees

end TokenStore

/-! ### Sequences of calls -/

section Runs

open TokenStore (Agrees)

variable {cfg : Cfg} {clock : Int} {trace : List (TokenStore × TokenCall)} {store store' : TokenStore}
  {call : TokenCall} {token : Text} {userId : Uuid}

theorem issuedAt_snoc {p : TokenStore × TokenCall} {time : Int} :
    IssuedAt cfg (trace ++ [p]) userId token time ↔
      (IssuedAt cfg trace userId token time ∧ p.2.ends? ≠ some token) ∨
        ∃ issued, p.2.issued cfg p.1 = some issued ∧ issued.userId = userId ∧
          issued.pair.refreshToken = token ∧ p.1.clock = time := by
  constructor
  · rintro ⟨earlier, q, later, issued, split, returned, own, is, at_, kept⟩
    rcases List.eq_nil_or_concat later with rfl | ⟨later', last, rfl⟩
    · obtain ⟨rfl, eq⟩ := List.append_inj' split rfl
      obtain rfl := List.singleton_inj.mp eq
      exact Or.inr ⟨issued, returned, own, is, at_⟩
    · rw [List.concat_eq_append, ← List.cons_append, ← List.append_assoc] at split
      obtain ⟨rfl, eq⟩ := List.append_inj' split rfl
      obtain rfl := List.singleton_inj.mp eq
      refine Or.inl ⟨⟨earlier, q, later', issued, rfl, returned, own, is, at_, ?_⟩, ?_⟩
      · intro r mem
        exact kept r (by simp [mem])
      · exact kept p (by simp)
  · rintro (⟨⟨earlier, q, later, issued, rfl, returned, own, is, at_, kept⟩, spared⟩ |
      ⟨issued, returned, own, is, at_⟩)
    · refine ⟨earlier, q, later ++ [p], issued, by simp, returned, own, is, at_, ?_⟩
      intro r mem
      rcases List.mem_append.mp mem with old | new
      · exact kept r old
      · rw [List.mem_singleton.mp new]
        exact spared
    · exact ⟨trace, p, [], issued, rfl, returned, own, is, at_, by simp⟩

theorem jtis_snoc {p : TokenStore × TokenCall} : jtis cfg (trace ++ [p]) =
    jtis cfg trace ++ ((p.2.issued cfg p.1).map IssuedPair.jti).toList := by
  unfold jtis
  rw [List.filterMap_append]
  cases is : p.2.issued cfg p.1 <;> simp [is]

/-- A call keeps the entries in agreement with the tokens of the trace, when the identifier
that it draws is new and has no dot. -/
theorem TokenStore.Agrees.step (injective : Function.Injective cfg.sha256)
    (agrees : Agrees cfg (IssuedAt cfg trace) (jtis cfg trace) store)
    (fresh : ∀ {issued}, call.issued cfg store = some issued →
      issued.jti ∉ jtis cfg trace ∧ '.' ∉ issued.jti)
    (taken : store.step cfg call = some store') :
    Agrees cfg (IssuedAt cfg (trace ++ [(store, call)])) (jtis cfg (trace ++ [(store, call)]))
      store' := by
  rw [jtis_snoc]
  cases call with
  | issuePair userId draw =>
    cases taken
    obtain ⟨unused, plain⟩ := fresh rfl
    refine (agrees.issue unused plain).congr fun u t time => ?_
    rw [issuedAt_snoc]
    simp [TokenCall.ends?, TokenCall.issued, issuePair, eq_comm]
  | rotate token draw =>
    cases taken
    cases valid : store.parseAndVerify cfg token with
    | none =>
      have none : (TokenCall.rotate token draw).issued cfg store = none :=
        congrArg Prod.fst (rotate_invalid valid)
      rw [none, rotate_invalid valid]
      simp only [Option.map_none, Option.toList_none, List.append_nil]
      refine (agrees.ignore valid).congr fun u t time => ?_
      rw [issuedAt_snoc, none]
      simp [TokenCall.ends?, eq_comm]
    | some found =>
      obtain ⟨userId, jti⟩ := found
      have some_ : (TokenCall.rotate token draw).issued cfg store =
          some ((store.del jti).issuePair cfg userId draw).1 := congrArg Prod.fst (rotate_valid valid)
      obtain ⟨unused, plain⟩ := fresh some_
      rw [some_, rotate_valid valid]
      refine ((agrees.drop injective valid).issue unused plain).congr fun u t time => ?_
      rw [issuedAt_snoc, some_]
      simp [TokenCall.ends?, issuePair, TokenStore.del, eq_comm]
  | revoke token =>
    cases taken
    simp only [TokenCall.issued, Option.map_none, Option.toList_none, List.append_nil]
    have ended : ∀ u t time, IssuedAt cfg (trace ++ [(store, .revoke token)]) u t time ↔
        IssuedAt cfg trace u t time ∧ t ≠ token := by
      intro u t time
      rw [issuedAt_snoc]
      simp [TokenCall.ends?, TokenCall.issued, eq_comm]
    cases valid : store.parseAndVerify cfg token with
    | none =>
      rw [revoke_invalid valid]
      exact (agrees.ignore valid).congr ended
    | some found =>
      rw [revoke_valid valid]
      exact (agrees.drop injective valid).congr ended
  | elapse duration =>
    cases taken
    simp only [TokenCall.issued, Option.map_none, Option.toList_none, List.append_nil]
    refine (agrees.elapse duration).congr fun u t time => ?_
    rw [issuedAt_snoc]
    simp [TokenCall.ends?, TokenCall.issued]

/-- What runs keep: the entries are those of the tokens issued and not ended. -/
theorem TokenStore.Run.agrees (injective : Function.Injective cfg.sha256)
    (run : TokenStore.Run cfg clock trace store) (new : NewJtis cfg trace) :
    Agrees cfg (IssuedAt cfg trace) (jtis cfg trace) store := by
  induction run with
  | nil =>
    refine ⟨new.dotless, ?_, ?_, ?_⟩
    · intro jti present
      exact absurd rfl present
    · intro jti entry found
      cases found
    · rintro userId token time ⟨earlier, p, later, issued, split, -⟩
      cases earlier <;> cases split
  | @snoc trace store store' call run taken ih =>
    obtain ⟨nodup, dotless⟩ := new
    rw [jtis_snoc] at nodup dotless
    have agrees := ih ⟨(List.nodup_append.mp nodup).1, fun jti mem => dotless jti (by simp [mem])⟩
    refine agrees.step injective ?_ taken
    intro issued is
    have last : issued.jti ∈ ((call.issued cfg store).map IssuedPair.jti).toList := by
      rw [is]
      exact List.mem_singleton_self _
    refine ⟨fun mem => ?_, dotless _ (List.mem_append_right _ last)⟩
    exact (List.nodup_append.mp nodup).2.2 _ mem _ last rfl

/-- A token is accepted for a user exactly while it is live for that user; a call that
does not accept it leaves the store as it is, and one that does changes its entry, and
that of the new pair. -/
theorem TokenStore.Run.accepts_live (injective : Function.Injective cfg.sha256)
    (run : TokenStore.Run cfg clock trace store) (new : NewJtis cfg trace) (token : Text) (draw : Nat) :
    (∀ userId, (∃ issued, (store.rotate cfg token draw).1 = some issued ∧ issued.userId = userId) ↔
      LiveToken cfg trace store userId token) ∧
    ((store.rotate cfg token draw).1 = none →
      (store.rotate cfg token draw).2 = store ∧ store.revoke cfg token = store) ∧
    ∀ issued, (store.rotate cfg token draw).1 = some issued →
      ∃ jti rawPart, token = jti ++ '.' :: rawPart ∧ '.' ∉ jti ∧
        (store.revoke cfg token).entries = Function.update store.entries jti none ∧
        (jti ≠ issued.jti → (store.rotate cfg token draw).2.entries jti = none) ∧
        ∀ other, other ≠ jti → other ≠ issued.jti →
          (store.rotate cfg token draw).2.entries other = store.entries other := by
  have accepted : ∀ userId, (∃ issued, (store.rotate cfg token draw).1 = some issued ∧
      issued.userId = userId) ↔ ∃ jti, store.parseAndVerify cfg token = some (userId, jti) := by
    intro userId
    cases valid : store.parseAndVerify cfg token with
    | none => simp [rotate_invalid valid]
    | some found => simp [rotate_valid valid, issuePair, Prod.ext_iff]
  refine ⟨?_, ?_, ?_⟩
  · intro userId
    rw [accepted]
    exact (run.agrees injective new).valid_iff injective
  · intro refused
    cases valid : store.parseAndVerify cfg token with
    | none => exact ⟨congrArg Prod.snd (rotate_invalid valid), revoke_invalid valid⟩
    | some found =>
      rw [rotate_valid valid] at refused
      cases refused
  · intro issued returned
    cases valid : store.parseAndVerify cfg token with
    | none =>
      rw [rotate_invalid valid] at returned
      cases returned
    | some found =>
      obtain ⟨userId, jti⟩ := found
      obtain ⟨rawPart, entry, is, dotless, -⟩ := parseAndVerify_iff.mp valid
      rw [rotate_valid valid] at returned ⊢
      cases returned
      refine ⟨jti, rawPart, is, dotless, ?_, ?_, ?_⟩
      · rw [revoke_valid valid]
        rfl
      · intro ne
        exact (entries_set_ne ne).trans entries_del_self
      · intro other ne ne'
        exact (entries_set_ne ne').trans (entries_del_ne ne)

/-- User 1 rotates a token, and user 2 revokes one. -/
def rotatedAndRevoked : List TokenCall :=
  [.issuePair 1 7, .rotate (drawnToken 7) 8, .issuePair 2 9, .elapse 1000000, .revoke (drawnToken 9)]

theorem rotatedAndRevoked_runs : (Lib.execute (TokenStore.step plainCfg) (TokenStore.empty 0)
    rotatedAndRevoked).isSome = true := by
  decide +kernel

/-- The new token of user 1 is live, and the two that were presented are not. -/
theorem accepts_live_rotated :
    ∃ store, TokenStore.Run plainCfg 0
        (Lib.traceOf (TokenStore.step plainCfg) (TokenStore.empty 0) rotatedAndRevoked) store ∧
      LiveToken plainCfg
        (Lib.traceOf (TokenStore.step plainCfg) (TokenStore.empty 0) rotatedAndRevoked) store 1
        (drawnToken 8) ∧
      ∀ userId, ∀ draw ∈ [7, 9], ¬ LiveToken plainCfg
        (Lib.traceOf (TokenStore.step plainCfg) (TokenStore.empty 0) rotatedAndRevoked) store userId
        (drawnToken draw) := by
  have run := Lib.Run.of_isSome rotatedAndRevoked_runs
  have new : NewJtis plainCfg
      (Lib.traceOf (TokenStore.step plainCfg) (TokenStore.empty 0) rotatedAndRevoked) :=
    ⟨by decide +kernel, by decide +kernel⟩
  have accepts := TokenStore.Run.accepts_live sha256Table.injective run new
  have refused : ∀ draw ∈ [7, 9],
      (((Lib.execute (TokenStore.step plainCfg) (TokenStore.empty 0) rotatedAndRevoked).get
        rotatedAndRevoked_runs).rotate plainCfg (drawnToken draw) 10).1 = none := by decide +kernel
  refine ⟨_, run, ((accepts (drawnToken 8) 10).1 1).mp ?_, fun userId draw mem live => ?_⟩
  · exact ⟨⟨1, drawnUuid 10, ⟨drawnUuid 10, drawnToken 10⟩⟩, by decide +kernel, rfl⟩
  · obtain ⟨issued, returned, -⟩ := ((accepts (drawnToken draw) 10).1 userId).mpr live
    rw [refused draw mem] at returned
    cases returned

end Runs

/-! ### The calls of the system -/

def Session.entry (session : Session) : RefreshEntry := ⟨session.userId, session.hash, session.expiresAt⟩

/-- The token store of the system. -/
def State.tokenStore (s : State) : TokenStore := ⟨s.clock, fun jti => (s.tokens jti).map Session.entry⟩

section Steps

variable {cfg : Cfg} {s : State} {n : Nat} {token jti : Text} {userId : Uuid}

theorem tokenStore_get : s.tokenStore.get jti = (s.session jti).map Session.entry := by
  show (((s.tokens jti).map Session.entry).filter fun entry => decide (s.clock < entry.expiresAt)) =
    ((s.tokens jti).filter fun session => decide (s.clock < session.expiresAt)).map Session.entry
  cases s.tokens jti with
  | none => rfl
  | some session =>
    rw [Option.map_some, Option.filter_some, Option.filter_some]
    by_cases young : s.clock < session.expiresAt <;> simp [Session.entry, young]

/-- The first step of a call accepts what `parseAndVerify` accepts. -/
theorem getStep_valid (n : Nat) (use : TokenUse)
    (valid : s.tokenStore.parseAndVerify cfg token = some (userId, jti)) :
    ∃ session, session.userId = userId ∧
      getStep cfg s n use token = s.goOn (.auth (.del use token jti session)) [] := by
  obtain ⟨rawPart, entry, is, dotless, found, hash, own⟩ := TokenStore.parseAndVerify_iff.mp valid
  rw [tokenStore_get] at found
  obtain ⟨session, there, rfl⟩ := Option.map_eq_some_iff.mp found
  refine ⟨session, own, ?_⟩
  unfold getStep
  rw [splitToken_iff.mpr ⟨is, dotless⟩]
  dsimp only
  rw [there]
  exact if_pos hash

theorem getStep_invalid {use : TokenUse} (invalid : s.tokenStore.parseAndVerify cfg token = none) :
    getStep cfg s n use token = unknownToken s n token use := by
  unfold getStep
  cases split : splitToken token with
  | none => rfl
  | some parts =>
    obtain ⟨jti, rawPart⟩ := parts
    dsimp only
    cases there : s.session jti with
    | none => rfl
    | some session =>
      dsimp only
      refine if_neg fun hash => ?_
      obtain ⟨is, dotless⟩ := splitToken_iff.mp split
      have valid : s.tokenStore.parseAndVerify cfg token = some (session.userId, jti) := by
        refine TokenStore.parseAndVerify_iff.mpr ⟨rawPart, session.entry, is, dotless, ?_, hash, rfl⟩
        rw [tokenStore_get, there]
        rfl
      rw [invalid] at valid
      cases valid

theorem auth_step {call : AuthCall} {choice : Choice} {move : Move Client}
    (at_ : s.clients n = .auth call) (turns : authStep cfg s n choice call = some move) :
    step cfg s (.client n choice) = some (s.moveClient n move) := by
  simp only [step, at_]
  show Option.map _ (authStep cfg s n choice call) = _
  rw [turns]
  rfl

theorem command_step {call next : AuthCall} {tokens : Text → Option Session}
    (at_ : s.clients n = .auth call) (sent : call.command cfg s = some (tokens, next)) :
    step cfg s (.command n) =
      some { s with tokens := tokens, clients := Function.update s.clients n (.auth next) } := by
  simp only [step, commandStep, at_, sent]
  rfl

/-- Between two states, a client has been answered. -/
def AnsweredSince (s s' : State) (n : Nat) (request : Request) (response : Response) : Prop :=
  ∃ events, s'.history = s.history ++ events ∧ .answered n request response ∈ events

theorem AnsweredSince.after {s t s' : State} {events : List Event} {request : Request}
    {response : Response} (history : t.history = s.history ++ events)
    (answered : AnsweredSince t s' n request response) : AnsweredSince s s' n request response := by
  obtain ⟨more, later, mem⟩ := answered
  refine ⟨events ++ more, ?_, List.mem_append_right _ mem⟩
  rw [later, history, List.append_assoc]

/-- From where it issues a pair, a call comes to the answer and the store of `issuePair`. -/
theorem issue_steps {grant : Grant} (at_ : s.clients n = .auth (.issue grant)) (choice : Choice) :
    ∃ s', Lib.execute (step cfg) s [.client n choice, .command n, .client n choice] = some s' ∧
      s'.server = s.server ∧
      s'.tokenStore = (s.tokenStore.issuePair cfg grant.userId choice.draw).2 ∧
      AnsweredSince s s' n (.auth grant.request)
        ⟨200, .tokens (s.tokenStore.issuePair cfg grant.userId choice.draw).1.pair⟩ := by
  let entry : Session := ⟨grant.userId, cfg.sha256 (cfg.randomBytes choice.draw),
    s.clock + cfg.refreshTtlSeconds * 1000000, grant.basis⟩
  let pair : TokenPair := ⟨cfg.sign grant.userId (cfg.randomUuid choice.draw) s.now,
    cfg.randomUuid choice.draw ++ '.' :: cfg.randomBytes choice.draw⟩
  let s₁ := s.moveClient n (issueStep cfg s grant choice)
  let s₂ := { s₁ with
    tokens := Function.update s₁.tokens (cfg.randomUuid choice.draw) (some entry)
    clients := Function.update s₁.clients n (.auth (.reply grant pair)) }
  let s₃ := s₂.moveClient n (s₂.goOn .idle
    [.granted n grant, .answered n (.auth grant.request) ⟨200, .tokens pair⟩])
  have first : step cfg s (.client n choice) = some s₁ := auth_step at_ rfl
  have second : step cfg s₁ (.command n) = some s₂ := command_step (State.moveClient_self ..) rfl
  have third : step cfg s₂ (.client n choice) = some s₃ := auth_step (Function.update_self ..) rfl
  refine ⟨s₃, ?_, rfl, ?_, ?_⟩
  · simp only [Lib.execute, Option.bind_some, first, second, third]
  · refine congrArg (TokenStore.mk s.clock) (funext fun k => ?_)
    show (Function.update s.tokens (cfg.randomUuid choice.draw) (some entry) k).map Session.entry =
      Function.update (fun k => (s.tokens k).map Session.entry) (cfg.randomUuid choice.draw)
        (some entry.entry) k
    by_cases new : k = cfg.randomUuid choice.draw
    · subst new
      rw [Function.update_self, Function.update_self]
      rfl
    · rw [Function.update_of_ne new, Function.update_of_ne new]
  · refine ⟨[.granted n grant, .answered n (.auth grant.request) ⟨200, .tokens pair⟩], ?_,
      List.mem_cons_of_mem _ (List.mem_singleton_self _)⟩
    show (s.history ++ []) ++ [_, _] = s.history ++ [_, _]
    rw [List.append_nil]

/-- A refresh by itself comes to the answer and the store of `rotate`. This connects the single
calls with the steps of the API. -/
theorem refresh_steps (at_ : s.clients n = .auth (.get .rotate token)) (choice : Choice) :
    ∃ labels s', Lib.execute (step cfg) s labels = some s' ∧
      s'.tokenStore = (s.tokenStore.rotate cfg token choice.draw).2 ∧
      AnsweredSince s s' n (.auth (.refresh token))
        (match (s.tokenStore.rotate cfg token choice.draw).1 with
          | none => invalidToken.response
          | some issued => ⟨200, .tokens issued.pair⟩) := by
  cases valid : s.tokenStore.parseAndVerify cfg token with
  | none =>
    have gets : authStep cfg s n choice (.get .rotate token) = some (unknownToken s n token .rotate) :=
      congrArg some (getStep_invalid valid)
    refine ⟨[.client n choice], s.moveClient n (unknownToken s n token .rotate), ?_, ?_, ?_⟩
    · rw [Lib.execute, auth_step at_ gets]
      rfl
    · rw [TokenStore.rotate_invalid valid]
      rfl
    · rw [TokenStore.rotate_invalid valid]
      exact ⟨_, rfl, List.mem_singleton_self _⟩
  | some found =>
    obtain ⟨userId, jti⟩ := found
    obtain ⟨session, rfl, goes⟩ := getStep_valid n .rotate valid
    have gets : authStep cfg s n choice (.get .rotate token) =
        some (s.goOn (.auth (.del .rotate token jti session)) []) := congrArg some goes
    let grant : Grant := ⟨.refresh token, session.userId, .refresh token session.basis⟩
    let s₁ := s.moveClient n (s.goOn (.auth (.del .rotate token jti session)) [])
    let s₂ := { s₁ with
      tokens := Function.update s.tokens jti none
      clients := Function.update s₁.clients n (.auth (.issue grant)) }
    have first : step cfg s (.client n choice) = some s₁ := auth_step at_ gets
    have second : step cfg s₁ (.command n) = some s₂ := command_step (State.moveClient_self ..) rfl
    obtain ⟨s', issues, -, stores, answered⟩ :=
      @issue_steps cfg s₂ n grant (Function.update_self ..) choice
    have deleted : s₂.tokenStore = s.tokenStore.del jti := by
      refine congrArg (TokenStore.mk s.clock) (funext fun k => ?_)
      show (Function.update s.tokens jti none k).map Session.entry =
        Function.update (fun k => (s.tokens k).map Session.entry) jti none k
      by_cases own : k = jti
      · subst own
        rw [Function.update_self, Function.update_self]
        rfl
      · rw [Function.update_of_ne own, Function.update_of_ne own]
    rw [deleted] at stores answered
    rw [TokenStore.rotate_valid valid]
    have since : s₂.history = s.history ++ [] := rfl
    refine ⟨[.client n choice, .command n] ++ [.client n choice, .command n, .client n choice], s', ?_,
      stores, answered.after since⟩
    rw [Lib.execute_append]
    simp only [Lib.execute, Option.bind_some, first, second]
    exact issues

end Steps

end FlashSale
