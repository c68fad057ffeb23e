import Thinker.Authorization

/-!
# Tokens of users that logged out

A key id belongs to one user, and leaves `public_jwks` with a logout or a deletion for ever. So the
tokens that `decode_jwt` accepts are those that were issued since (`Live`). That is shown of the
key ids and keys of the users alone (`Keys`, `Tokens`), for the four things that a request may do
to them : nothing, a new key, a token, a logout. A request changes one user record (`Sane`), and
writes that to the database.
-/

namespace Thinker

/-! ## Keys and tokens -/

/-- A token was issued for a user. -/
def IssuedFor (history : List TokenRecord) (username tokenType : Text) (token : JwtToken) : Prop :=
  .issued username tokenType token ∈ history

/-- A token was issued for a user who has neither logged out nor been deleted since. -/
def Live : List TokenRecord → Text → Text → JwtToken → Prop
  | [], _, _, _ => False
  | .issued u type t :: h, username, tokenType, token =>
    (u = username ∧ type = tokenType ∧ t = token) ∨ Live h username tokenType token
  | .revoked u :: h, username, tokenType, token =>
    u ≠ username ∧ Live h username tokenType token

theorem Live.issued {h : List TokenRecord} {username tokenType : Text} {token : JwtToken}
    (hl : Live h username tokenType token) : IssuedFor h username tokenType token := by
  induction h with
  | nil => exact hl.elim
  | cons r h ih =>
    cases r with
    | issued u type t =>
      rcases hl with ⟨rfl, rfl, rfl⟩ | hl
      · exact List.mem_cons_self
      · exact List.mem_cons_of_mem _ (ih hl)
    | revoked u => exact List.mem_cons_of_mem _ (ih hl.2)

/-- The public keys are those of the users. -/
structure Keys (kid secret jwks : Text → Option Text) (usedIds : List Text) : Prop where
  paired : ∀ n, (kid n).isSome = (secret n).isSome
  jwks_iff : ∀ i k, jwks i = some k ↔ ∃ n, kid n = some i ∧ secret n = some k
  owner : ∀ n n' i, kid n = some i → kid n' = some i → n = n'
  used : ∀ n i, kid n = some i → i ∈ usedIds

/-- What a token says that is issued for a user with a key id and a key. -/
structure TokenFor (issuer username tokenType i k : Text) (t : JwtToken) : Prop where
  header : t.header = ⟨some "JWT".toList, some "EdDSA".toList, some i⟩
  iss : t.payload.iss = some issuer
  aud : t.payload.aud = some "Moonraker".toList
  username : t.payload.username = some username
  tokenType : t.payload.tokenType = some tokenType
  exp : t.payload.exp.isSome = true
  signature : t.signature = some ⟨k, t.header, t.payload⟩

/-- An issued token is live as long as its key id is that of its user, and nobody else's. -/
def Tokens (issuer : Text) (kid jwks : Text → Option Text) (usedIds : List Text)
    (history : List TokenRecord) : Prop :=
  ∀ n type t, IssuedFor history n type t → ∃ i k, TokenFor issuer n type i k t ∧ i ∈ usedIds ∧
    (∀ n', kid n' = some i → n' = n) ∧ (∀ k', jwks i = some k' → k' = k) ∧
    (Live history n type t ↔ kid n = some i)

section

variable {issuer : Text} {kid secret jwks : Text → Option Text} {usedIds : List Text}
  {history : List TokenRecord} {n i k : Text}

/-- A user gets a new key. -/
theorem Keys.newKey (h : Keys kid secret jwks usedIds) (hn : kid n = none) (hi : i ∉ usedIds) :
    Keys (Function.update kid n (some i)) (Function.update secret n (some k))
      (Function.update jwks i (some k)) (i :: usedIds) where
  paired n' := by
    by_cases hn' : n' = n
    · subst hn'
      simp
    · simpa [hn'] using h.paired n'
  jwks_iff j k' := by
    by_cases hj : j = i
    · subst hj
      rw [Function.update_self]
      constructor
      · intro hk
        exact ⟨n, by simp, by simpa using hk⟩
      · rintro ⟨n', hn', hk⟩
        by_cases he : n' = n
        · subst he
          simpa using hk
        · rw [Function.update_of_ne he] at hn'
          exact absurd (h.used n' _ hn') hi
    · rw [Function.update_of_ne hj, h.jwks_iff]
      refine exists_congr fun n' => ?_
      by_cases he : n' = n
      · subst he
        simp [hn, Ne.symm hj]
      · simp [he]
  owner a b j ha hb := by
    by_cases hea : a = n <;> by_cases heb : b = n
    · rw [hea, heb]
    · subst hea
      rw [Function.update_self] at ha
      rw [Function.update_of_ne heb] at hb
      exact absurd (Option.some_inj.1 ha ▸ h.used b j hb) hi
    · subst heb
      rw [Function.update_self] at hb
      rw [Function.update_of_ne hea] at ha
      exact absurd (Option.some_inj.1 hb ▸ h.used a j ha) hi
    · rw [Function.update_of_ne hea] at ha
      rw [Function.update_of_ne heb] at hb
      exact h.owner a b j ha hb
  used a j ha := by
    by_cases he : a = n
    · subst he
      obtain rfl : i = j := by simpa using ha
      exact List.mem_cons_self
    · rw [Function.update_of_ne he] at ha
      exact List.mem_cons_of_mem _ (h.used a j ha)

/-- The old tokens of a user do not become live with a new key. -/
theorem Tokens.newKey (h : Tokens issuer kid jwks usedIds history) (hn : kid n = none)
    (hi : i ∉ usedIds) :
    Tokens issuer (Function.update kid n (some i)) (Function.update jwks i (some k)) (i :: usedIds)
      history := by
  intro a type t ht
  obtain ⟨j, l, hfor, hused, howner, hjwks, hlive⟩ := h a type t ht
  have hne : j ≠ i := fun he => hi (he ▸ hused)
  have hkid (b : Text) : Function.update kid n (some i) b = some j ↔ kid b = some j := by
    by_cases he : b = n
    · subst he
      simp [hn, Ne.symm hne]
    · rw [Function.update_of_ne he]
  refine ⟨j, l, hfor, List.mem_cons_of_mem _ hused, fun b hb => howner b ((hkid b).1 hb), ?_,
    hlive.trans (hkid a).symm⟩
  rw [Function.update_of_ne hne]
  exact hjwks

/-- A user logs out or is deleted. -/
theorem Keys.revoke (h : Keys kid secret jwks usedIds) (n : Text) :
    Keys (Function.update kid n none) (Function.update secret n none)
      ((kid n).elim jwks fun i => Function.update jwks i none) usedIds where
  paired n' := by
    by_cases hn' : n' = n
    · subst hn'
      simp
    · simpa [hn'] using h.paired n'
  jwks_iff j k' := by
    have hother : (∃ n', Function.update kid n none n' = some j ∧
        Function.update secret n none n' = some k') ↔
        ∃ n', n' ≠ n ∧ kid n' = some j ∧ secret n' = some k' := by
      refine exists_congr fun n' => ?_
      by_cases he : n' = n
      · subst he
        simp
      · simp [he]
    rw [hother]
    cases hk : kid n with
    | none =>
      rw [Option.elim_none, h.jwks_iff]
      refine exists_congr fun n' => ⟨fun hn' => ⟨fun he => ?_, hn'⟩, fun hn' => hn'.2⟩
      subst he
      simp [hk] at hn'
    | some i =>
      rw [Option.elim_some]
      by_cases hj : j = i
      · subst hj
        rw [Function.update_self]
        refine ⟨fun hn' => by simp at hn', ?_⟩
        rintro ⟨n', hne, hn', -⟩
        exact absurd (h.owner n' n j hn' hk) hne
      · rw [Function.update_of_ne hj, h.jwks_iff]
        refine exists_congr fun n' => ⟨fun hn' => ⟨fun he => ?_, hn'⟩, fun hn' => hn'.2⟩
        subst he
        rw [hk] at hn'
        exact hj (Option.some_inj.1 hn'.1).symm
  owner a b j ha hb := by
    have hkid (x : Text) (hx : Function.update kid n none x = some j) : kid x = some j := by
      by_cases he : x = n
      · subst he
        simp at hx
      · rwa [Function.update_of_ne he] at hx
    exact h.owner a b j (hkid a ha) (hkid b hb)
  used a j ha := by
    by_cases he : a = n
    · subst he
      simp at ha
    · rw [Function.update_of_ne he] at ha
      exact h.used a j ha

/-- The tokens of a user who logs out are not live any more. -/
theorem Tokens.revoke (h : Tokens issuer kid jwks usedIds history) (n : Text) :
    Tokens issuer (Function.update kid n none)
      ((kid n).elim jwks fun i => Function.update jwks i none) usedIds
      (.revoked n :: history) := by
  intro a type t ht
  have ht' : IssuedFor history a type t := by simpa [IssuedFor] using ht
  obtain ⟨j, l, hfor, hused, howner, hjwks, hlive⟩ := h a type t ht'
  refine ⟨j, l, hfor, hused, fun b hb => howner b ?_, fun k' hk' => hjwks k' ?_, ?_⟩
  · by_cases he : b = n
    · subst he
      simp at hb
    · rwa [Function.update_of_ne he] at hb
  · cases hk : kid n with
    | none => simpa [hk] using hk'
    | some i =>
      rw [hk, Option.elim_some] at hk'
      by_cases hj : j = i
      · subst hj
        simp at hk'
      · rwa [Function.update_of_ne hj] at hk'
  · unfold Live
    by_cases he : a = n
    · subst he
      simp
    · rw [Function.update_of_ne he, ← hlive]
      exact and_iff_right (Ne.symm he)

/-- A token is issued. -/
theorem Tokens.issue (h : Tokens issuer kid jwks usedIds history)
    (hkeys : Keys kid secret jwks usedIds) {type : Text} {t : JwtToken} (hi : kid n = some i)
    (hk : secret n = some k) (ht : TokenFor issuer n type i k t) :
    Tokens issuer kid jwks usedIds (.issued n type t :: history) := by
  intro a type' t' ht'
  unfold Live
  rcases List.mem_cons.1 ht' with he | ht'
  · obtain ⟨rfl, rfl, rfl⟩ := TokenRecord.issued.inj he
    refine ⟨i, k, ht, hkeys.used _ _ hi, fun b hb => hkeys.owner _ _ _ hb hi, fun k' hk' => ?_, ?_⟩
    · obtain ⟨b, hb, hk'⟩ := (hkeys.jwks_iff i k').1 hk'
      obtain rfl := hkeys.owner _ _ _ hb hi
      rw [hk] at hk'
      exact (Option.some_inj.1 hk').symm
    · exact iff_of_true (.inl ⟨rfl, rfl, rfl⟩) hi
  · obtain ⟨j, l, hfor, hused, howner, hjwks, hlive⟩ := h a type' t' ht'
    refine ⟨j, l, hfor, hused, howner, hjwks, ?_⟩
    rw [← hlive]
    refine or_iff_right_of_imp ?_
    rintro ⟨rfl, rfl, rfl⟩
    have hij : i = j := by
      have := ht.header.symm.trans hfor.header
      simpa using this
    exact hlive.2 (hij ▸ hi)

end

/-! ## User records -/

/-- The length of a key in `lmdb`. -/
def encodedLength (t : Text) : ℕ :=
  (t.map Char.utf8Size).sum

/-- A name that names one record of the database. -/
structure Storable (username : Text) : Prop where
  ne_nil : username ≠ []
  no_dot : '.' ∉ username
  length : encodedLength username ≤ 511

/-- The environment commits what is about a key of at most 511 bytes, and the encoder takes user
records. -/
structure Lmdb.Stores (lmdb : Lmdb) : Prop where
  commits : ∀ ns k record, k ≠ [] → encodedLength k ≤ 511 → lmdb.commits ns k record = true
  dumps : ∀ u : UserInfo, lmdb.dumps u.record = true

theorem Storable.processKey {n : Text} (h : Storable n) :
    processKey (.string n) = some (n, []) := by
  simp [Thinker.processKey, List.splitOn_eq_singleton h.no_dot, h.ne_nil.symm]

namespace Authorization

variable {c : AuthConfig} {s t : Authorization} {n : Text} {o : ℕ} {u : UserInfo}

/-- The key id of a user. -/
def kid (s : Authorization) (n : Text) : Option Text :=
  (s.users n).bind fun o => (s.heap o).jwkId

/-- The key of a user. -/
def secret (s : Authorization) (n : Text) : Option Text :=
  (s.users n).bind fun o => (s.heap o).jwtSecret

/-- The user records are those of their names, and the database holds them. -/
structure Sane (s : Authorization) : Prop where
  lt : ∀ n o, s.users n = some o → o < s.objects
  name : ∀ n o, s.users n = some o → (s.heap o).username = n
  storable : ∀ n o, s.users n = some o → Storable n
  opened : (s.db.namespaces.get authorizedUsers).isSome = true
  stored : ∀ n, s.db.getRecord authorizedUsers n = (s.users n).map fun o => (s.heap o).record

/-- A user record is put in place and written to the database. -/
structure Put (c : AuthConfig) (s t : Authorization) (n : Text) (o : ℕ) (u : UserInfo) : Prop where
  heap : t.heap = Function.update s.heap o u
  users : t.users = Function.update s.users n (some o)
  objects : s.objects ≤ t.objects
  lt : o < t.objects
  owner : ∀ n', s.users n' = some o → n' = n
  name : u.username = n
  storable : Storable n
  db : t.db = (s.db.insertImpl c.lmdb authorizedUsers (.string n) u.record).1

theorem Put.apply (h : Put c s t n o u) {α : Type} (f : UserInfo → α) (n' : Text) :
    (t.users n').map (fun o => f (t.heap o)) =
      if n = n' then some (f u) else (s.users n').map fun o => f (s.heap o) := by
  rw [h.users, h.heap]
  by_cases hn : n = n'
  · subst hn
    simp
  · rw [Function.update_of_ne (Ne.symm hn), if_neg hn]
    cases ho : s.users n' with
    | none => rfl
    | some o' =>
      have hne : o' ≠ o := fun he => hn (h.owner n' (he ▸ ho)).symm
      simp [hne]

theorem bind_eq_map_join (s : Authorization) (f : UserInfo → Option Text) (n : Text) :
    ((s.users n).bind fun o => f (s.heap o)) =
      ((s.users n).map fun o => f (s.heap o)).join := by
  cases s.users n <;> rfl

theorem Put.kid (h : Put c s t n o u) : t.kid = Function.update s.kid n u.jwkId := by
  funext n'
  unfold Authorization.kid
  rw [bind_eq_map_join, h.apply]
  by_cases hn : n = n'
  · subst hn
    simp
  · rw [if_neg hn, Function.update_of_ne (Ne.symm hn), bind_eq_map_join]

theorem Put.secret (h : Put c s t n o u) : t.secret = Function.update s.secret n u.jwtSecret := by
  funext n'
  unfold Authorization.secret
  rw [bind_eq_map_join, h.apply]
  by_cases hn : n = n'
  · subst hn
    simp
  · rw [if_neg hn, Function.update_of_ne (Ne.symm hn), bind_eq_map_join]

theorem Put.sane (h : Put c s t n o u) (hl : c.lmdb.Stores) (hs : Sane s) : Sane t := by
  have hold (n' : Text) (o' : ℕ) (hn : n' ≠ n) (ho : t.users n' = some o') :
      s.users n' = some o' ∧ o' ≠ o := by
    rw [h.users, Function.update_of_ne hn] at ho
    exact ⟨ho, fun he => hn (h.owner n' (he ▸ ho))⟩
  have hself (o' : ℕ) (ho : t.users n = some o') : o' = o := by
    rw [h.users, Function.update_self] at ho
    exact (Option.some_inj.1 ho).symm
  have hencodes : c.lmdb.encodes u.record = true := hl.dumps u
  obtain ⟨hdb, hopen⟩ := Database.changes_insertImpl h.storable.processKey hs.opened rfl hencodes
    (hl.commits _ _ _ h.storable.ne_nil h.storable.length)
  refine ⟨fun n' o' ho => ?_, fun n' o' ho => ?_, fun n' o' ho => ?_, h.db ▸ hopen, fun n' => ?_⟩
  · by_cases hn : n' = n
    · subst hn
      exact hself o' ho ▸ h.lt
    · exact (hs.lt n' o' (hold n' o' hn ho).1).trans_le h.objects
  · rw [h.heap]
    by_cases hn : n' = n
    · subst hn
      rw [hself o' ho, Function.update_self]
      exact h.name
    · rw [Function.update_of_ne (hold n' o' hn ho).2]
      exact hs.name n' o' (hold n' o' hn ho).1
  · by_cases hn : n' = n
    · subst hn
      exact h.storable
    · exact hs.storable n' o' (hold n' o' hn ho).1
  · rw [h.db, hdb authorizedUsers n', h.apply]
    by_cases hn : n = n'
    · simp [hn]
    · simp [hn, hs.stored]

/-- The users of the sockets were made. -/
def Made (s : Authorization) : Prop :=
  ∀ uid socket, s.sockets uid = some socket → s.isMade socket.userInfo = true

theorem isMade_mono (h : s.objects ≤ t.objects) {user : CurrentUser} (hm : s.isMade user = true) :
    t.isMade user = true := by
  cases user with
  | user o => exact decide_eq_true ((of_decide_eq_true hm).trans_le h)
  | none => rfl
  | trusted => rfl

theorem Made.mono (h : Made s) (ho : s.objects ≤ t.objects) (hs : t.sockets = s.sockets) :
    Made t := by
  intro uid socket hw
  rw [hs] at hw
  exact isMade_mono ho (h uid socket hw)

/-- What every run keeps. -/
structure Good (c : AuthConfig) (s : Authorization) : Prop where
  made : Made s
  sane : Sane s
  keys : Keys s.kid s.secret s.publicJwks s.usedIds
  tokens : Tokens c.issuer s.kid s.publicJwks s.usedIds s.history

/-- A user record is changed, and not its key. -/
theorem Good.put (h : Good c s) (hp : Put c s t n o u) (hl : c.lmdb.Stores)
    (hkid : u.jwkId = s.kid n) (hsecret : u.jwtSecret = s.secret n)
    (hj : t.publicJwks = s.publicJwks) (hi : t.usedIds = s.usedIds) (hh : t.history = s.history)
    (hw : t.sockets = s.sockets) : Good c t := by
  have hk : t.kid = s.kid := by rw [hp.kid, hkid, Function.update_eq_self]
  have hse : t.secret = s.secret := by rw [hp.secret, hsecret, Function.update_eq_self]
  refine ⟨h.made.mono hp.objects hw, hp.sane hl h.sane, ?_, ?_⟩
  · rw [hk, hse, hj, hi]
    exact h.keys
  · rw [hk, hj, hi, hh]
    exact h.tokens

/-- A write to the database changes nothing else. -/
theorem syncUser_eq (c : AuthConfig) (s : Authorization) (n : Text) :
    ∃ db, s.syncUser c n = { s with db := db } ∧ ∀ o, s.users n = some o →
      db = (s.db.insertImpl c.lmdb authorizedUsers (.string n) (s.heap o).record).1 := by
  unfold syncUser
  cases hu : s.users n with
  | none => exact ⟨s.db, rfl, fun o ho => by simp at ho⟩
  | some o => exact ⟨_, rfl, fun o' ho' => by rw [Option.some_inj.1 ho']⟩

/-- The record of a user is changed and written to the database. -/
theorem put_edit (h : Sane s) (ho : s.users n = some o) (hu : u.username = n)
    (hheap : t.heap = Function.update s.heap o u) (husers : t.users = s.users)
    (hobjects : t.objects = s.objects)
    (hdb : t.db = (s.db.insertImpl c.lmdb authorizedUsers (.string n) u.record).1) :
    Put c s t n o u where
  heap := hheap
  users := by rw [husers, ← ho, Function.update_eq_self]
  objects := hobjects.ge
  lt := hobjects ▸ h.lt n o ho
  owner n' hn' := (h.name n' o hn').symm.trans (h.name n o ho)
  name := hu
  storable := h.storable n o ho
  db := hdb

/-! ## Requests -/

theorem kid_eq (ho : s.users n = some o) : s.kid n = (s.heap o).jwkId := by
  simp [kid, ho]

theorem secret_eq (ho : s.users n = some o) : s.secret n = (s.heap o).jwtSecret := by
  simp [secret, ho]

theorem tokenFor_generateJwt (username jwkId key tokenType : Text) (expTime : ℤ) :
    TokenFor c.issuer username tokenType jwkId key
      (s.generateJwt c username jwkId key tokenType expTime) :=
  ⟨rfl, rfl, rfl, rfl, rfl, rfl, rfl⟩

theorem Good.issue (h : Good c s) {i k : Text} (hi : s.kid n = some i) (hk : s.secret n = some k)
    (tokenType : Text) (expTime : ℤ) : Good c (s.issue c n i k tokenType expTime) :=
  ⟨h.made, ⟨h.sane.lt, h.sane.name, h.sane.storable, h.sane.opened, h.sane.stored⟩, h.keys,
    h.tokens.issue h.keys hi hk (tokenFor_generateJwt _ _ _ _ _)⟩

/-- A user is made whose name names a record of the database. -/
theorem Good.createUser (h : Good c s) (hl : c.lmdb.Stores) {args : LoginArgs}
    (hn : s.users args.username = none) (hst : Storable args.username) :
    Good c (s.createUser c args) ∧ (s.createUser c args).users args.username = some s.objects ∧
      ((s.createUser c args).usedIds = s.usedIds ∧ (s.createUser c args).history = s.history) ∧
      (s.createUser c args).pending = s.pending := by
  have hkid : s.kid args.username = none := by simp [kid, hn]
  have hsecret : s.secret args.username = none := by simp [secret, hn]
  unfold Authorization.createUser
  dsimp only
  obtain ⟨db, hsync, hdb⟩ := syncUser_eq c
    { s with
      heap := Function.update s.heap s.objects (s.newUser c args)
      objects := s.objects + 1
      users := Function.update s.users args.username (some s.objects) } args.username
  rw [hsync]
  refine ⟨h.put (n := args.username) (o := s.objects) (u := s.newUser c args) ?_ hl hkid.symm
    hsecret.symm rfl rfl rfl rfl, by simp, ⟨rfl, rfl⟩, rfl⟩
  exact
    { heap := rfl
      users := rfl
      objects := Nat.le_succ _
      lt := Nat.lt_succ_self _
      owner := fun n' hn' => absurd (h.sane.lt n' _ hn') (lt_irrefl _)
      name := rfl
      storable := hst
      db := by simpa using hdb s.objects (by simp) }

/-- A user has a key and a key id, which may be new. -/
theorem Good.ensureKey (h : Good c s) (hl : c.lmdb.Stores) {args : LoginArgs}
    (ho : s.users args.username = some o) (hfresh : args.jwkId ∉ s.usedIds)
    {key jwkId : Text} (he : s.ensureKey c o args = some (t, key, jwkId)) :
    (Good c t ∧ t.users args.username = some o) ∧ t.kid args.username = some jwkId ∧
      t.secret args.username = some key ∧ t.history = s.history ∧ t.pending = s.pending := by
  unfold Authorization.ensureKey at he
  cases hsec : (s.heap o).jwtSecret with
  | some k =>
    simp only [hsec] at he
    obtain ⟨i, hi, heq⟩ := Option.map_eq_some_iff.1 he
    simp only [Prod.mk.injEq] at heq
    obtain ⟨rfl, rfl, rfl⟩ := heq
    exact ⟨⟨h, ho⟩, (kid_eq ho).trans hi, (secret_eq ho).trans hsec, rfl, rfl⟩
  | none =>
    simp only [hsec, Option.some_inj, Prod.mk.injEq] at he
    obtain ⟨rfl, rfl, rfl⟩ := he
    have hkid : s.kid args.username = none := by
      have hp := h.keys.paired args.username
      rw [secret_eq ho, hsec] at hp
      simpa using hp
    obtain ⟨db, hsync, hdb⟩ := syncUser_eq c
      { s with
        heap := Function.update s.heap o ((s.heap o).setKey (some args.seed) (some args.jwkId))
        usedKeys := args.seed :: s.usedKeys
        usedIds := args.jwkId :: s.usedIds } args.username
    rw [hsync]
    have hp := put_edit (c := c) (u := (s.heap o).setKey (some args.seed) (some args.jwkId))
      (t := { s with
        heap := Function.update s.heap o ((s.heap o).setKey (some args.seed) (some args.jwkId))
        usedKeys := args.seed :: s.usedKeys
        usedIds := args.jwkId :: s.usedIds
        db := db
        publicJwks := Function.update s.publicJwks args.jwkId (some args.seed) })
      h.sane ho (h.sane.name _ o ho) rfl rfl rfl (by simpa using hdb o ho)
    refine ⟨⟨⟨h.made.mono hp.objects rfl, hp.sane hl h.sane, ?_, ?_⟩, ho⟩, ?_, ?_, rfl, rfl⟩
    · rw [hp.kid, hp.secret]
      exact h.keys.newKey hkid hfresh
    · rw [hp.kid]
      exact h.tokens.newKey hkid hfresh
    · rw [hp.kid, Function.update_self]
      rfl
    · rw [hp.secret, Function.update_self]
      rfl

@[simp] theorem setUserInfo_history (uid : ℕ) (user : CurrentUser) :
    (s.setUserInfo uid user).history = s.history := by
  unfold setUserInfo
  split_ifs <;> rfl

@[simp] theorem setUserInfo_pending (uid : ℕ) (user : CurrentUser) :
    (s.setUserInfo uid user).pending = s.pending := by
  unfold setUserInfo
  split_ifs <;> rfl

/-- What is kept does not depend on the time. -/
theorem Good.congr (h : Good c s) (hmade : Made t) (husers : t.users = s.users) (hheap : t.heap = s.heap)
    (hobjects : t.objects = s.objects) (hj : t.publicJwks = s.publicJwks) (hdb : t.db = s.db)
    (hids : t.usedIds = s.usedIds) (hh : t.history = s.history) : Good c t := by
  have hk : t.kid = s.kid := by
    funext n
    simp only [kid, husers, hheap]
  have hse : t.secret = s.secret := by
    funext n
    simp only [secret, husers, hheap]
  refine ⟨hmade, ⟨?_, ?_, ?_, ?_, ?_⟩, ?_, ?_⟩
  · rw [husers, hobjects]
    exact h.sane.lt
  · rw [husers, hheap]
    exact h.sane.name
  · rw [husers]
    exact h.sane.storable
  · rw [hdb]
    exact h.sane.opened
  · rw [hdb, husers, hheap]
    exact h.sane.stored
  · rw [hk, hse, hj, hids]
    exact h.keys
  · rw [hk, hj, hids, hh]
    exact h.tokens

/-- A socket gets a user that was made. -/
theorem Made.update (h : Made s) {uid : ℕ} {socket : Option AuthSocket}
    (hm : ∀ w, socket = some w → s.isMade w.userInfo = true) :
    Made { s with sockets := Function.update s.sockets uid socket } := by
  intro uid' w hw
  by_cases hu : uid' = uid
  · subst hu
    exact hm w (by simpa using hw)
  · exact h uid' w (by simpa [hu] using hw)

theorem Good.setUserInfo (h : Good c s) {uid : ℕ} {user : CurrentUser}
    (hm : s.isMade user = true) : Good c (s.setUserInfo uid user) := by
  unfold Authorization.setUserInfo
  split_ifs
  · refine h.congr (h.made.update fun w hw => ?_) rfl rfl rfl rfl rfl rfl rfl
    obtain rfl := Option.some_inj.1 hw
    exact hm
  · exact h

/-- `_login_jwt_user`, if a user that it makes has a name that names a record of the database. -/
theorem Good.loginJwtUser (h : Good c s) (hl : c.lmdb.Stores) {uid : Option ℕ} {args : LoginArgs}
    {create : Bool} (hst : s.loginCreates c args create = some true →
      s.users args.username = none → Storable args.username)
    (hfresh : args.jwkId ∉ s.usedIds) (he : s.loginJwtUser c uid args create = some t) :
    Good c t ∧ t.pending = s.pending ∧ ∃ r r' : JwtToken,
      t.history = .issued args.username "refresh".toList r ::
        .issued args.username "access".toList r' :: s.history := by
  obtain ⟨⟨s₁, o⟩, hobtain, he⟩ := Option.bind_eq_some_iff.1 he
  obtain ⟨⟨s₂, key, jwkId⟩, hensure, rfl⟩ := Option.map_eq_some_iff.1 he
  have h₁ : Good c s₁ ∧ s₁.users args.username = some o ∧
      (s₁.usedIds = s.usedIds ∧ s₁.history = s.history) ∧ s₁.pending = s.pending := by
    unfold obtainUser at hobtain
    split at hobtain
    · cases hobtain
    · rename_i hc
      split_ifs at hobtain with hsome
      simp only [Option.some_inj, Prod.mk.injEq] at hobtain
      obtain ⟨rfl, rfl⟩ := hobtain
      have hn : s.users args.username = none := by simpa using hsome
      exact h.createUser hl hn (hst hc hn)
    · obtain ⟨o', hfind, heq⟩ := Option.map_eq_some_iff.1 hobtain
      simp only [Prod.mk.injEq] at heq
      obtain ⟨rfl, rfl⟩ := heq
      refine ⟨h, ?_, ⟨rfl, rfl⟩, rfl⟩
      obtain ⟨o, ho, hfind⟩ := Option.bind_eq_some_iff.1 hfind
      split_ifs at hfind
      split at hfind
      · split_ifs at hfind
        exact Option.some_inj.1 hfind ▸ ho
      · cases hfind
  obtain ⟨hg₁, ho₁, ⟨hids, hhist₁⟩, hpend₁⟩ := h₁
  obtain ⟨⟨hg₂, ho₂⟩, hkid, hsecret, hhist₂, hpend₂⟩ :=
    hg₁.ensureKey hl ho₁ (by rw [hids]; exact hfresh) hensure
  have hg₃ : Good c ((s₂.issueAccess c args.username jwkId key).issue c args.username jwkId key
      "refresh".toList (c.loginTimeout * 86400)) :=
    (hg₂.issue hkid hsecret _ _).issue (n := args.username) (i := jwkId) (k := key) hkid hsecret _ _
  have hhist : ∃ r r' : JwtToken, ((s₂.issueAccess c args.username jwkId key).issue c args.username
      jwkId key "refresh".toList (c.loginTimeout * 86400)).history =
        .issued args.username "refresh".toList r ::
          .issued args.username "access".toList r' :: s.history := by
    rw [← hhist₁, ← hhist₂]
    exact ⟨_, _, rfl⟩
  have hpend : s₂.pending = s.pending := hpend₂.trans hpend₁
  dsimp only
  split
  · refine ⟨hg₃.setUserInfo (decide_eq_true (hg₂.sane.lt _ _ ho₂)),
      (setUserInfo_pending _ _).trans hpend, ?_⟩
    rw [setUserInfo_history]
    exact hhist
  · exact ⟨hg₃, hpend, hhist⟩

theorem Good.handleLogout (h : Good c s) (hl : c.lmdb.Stores) {user : CurrentUser}
    (he : s.handleLogout c user = some t) : Good c t ∧ ∃ n, t.history = .revoked n :: s.history ∧
      t.pending = s.pending ++ [n] := by
  obtain ⟨n, hn, he⟩ := Option.bind_eq_some_iff.1 he
  split_ifs at he with hr
  obtain ⟨o, ho, rfl⟩ := Option.map_eq_some_iff.1 he
  obtain ⟨db, hsync, hdb⟩ := syncUser_eq c
    { s with heap := Function.update s.heap o ((s.heap o).setKey none none) } n
  dsimp only
  rw [hsync]
  have hp := put_edit (c := c) (u := (s.heap o).setKey none none)
    (t := ({ s with
      heap := Function.update s.heap o ((s.heap o).setKey none none)
      db := db } : Authorization).revoke n (s.heap o).jwkId)
    h.sane ho (h.sane.name _ o ho) rfl rfl rfl (by simpa [Authorization.revoke] using hdb o ho)
  refine ⟨⟨h.made.mono hp.objects rfl, hp.sane hl h.sane, ?_, ?_⟩, n, rfl, rfl⟩
  · rw [hp.kid, hp.secret, ← kid_eq ho]
    exact h.keys.revoke n
  · rw [hp.kid, ← kid_eq ho]
    exact h.tokens.revoke n

theorem Good.deleteJwtUser (h : Good c s) (hl : c.lmdb.Stores) {user : CurrentUser}
    (he : s.deleteJwtUser c user n = some t) : Good c t ∧ t.history = .revoked n :: s.history ∧
      t.pending = s.pending ++ [n] := by
  unfold Authorization.deleteJwtUser at he
  split_ifs at he with hcur hr
  obtain ⟨o, ho, rfl⟩ := Option.map_eq_some_iff.1 he
  have hst := h.sane.storable n o ho
  have hrecord : (s.db.getRecord authorizedUsers n).isSome = true := by
    rw [h.sane.stored, ho]
    rfl
  obtain ⟨hdb, hopen⟩ := Database.changes_deleteImpl hst.processKey hrecord
    (hl.commits _ _ none hst.ne_nil hst.length)
  have husers (n' : Text) (o' : ℕ) (ho' : Function.update s.users n none n' = some o') :
      s.users n' = some o' := by
    by_cases hn : n' = n
    · subst hn
      simp at ho'
    · rwa [Function.update_of_ne hn] at ho'
  have hfield (f : UserInfo → Option Text) :
      (fun n' => (Function.update s.users n none n').bind fun o => f (s.heap o)) =
        Function.update (fun n' => (s.users n').bind fun o => f (s.heap o)) n none := by
    funext n'
    by_cases hn : n' = n
    · subst hn
      simp
    · simp [hn]
  refine ⟨⟨h.made, ⟨fun n' o' ho' => h.sane.lt n' o' (husers n' o' ho'),
    fun n' o' ho' => h.sane.name n' o' (husers n' o' ho'),
    fun n' o' ho' => h.sane.storable n' o' (husers n' o' ho'), hopen, fun n' => ?_⟩, ?_, ?_⟩,
    rfl, rfl⟩
  · refine (hdb authorizedUsers n').trans ?_
    by_cases hn : n = n'
    · subst hn
      simp [Authorization.revoke]
    · simp [Authorization.revoke, hn, Ne.symm hn, h.sane.stored]
  · have hk := h.keys.revoke n
    rw [kid_eq ho] at hk
    dsimp only
    unfold Authorization.revoke kid secret
    dsimp only
    rw [hfield UserInfo.jwkId, hfield UserInfo.jwtSecret]
    exact hk
  · have ht := h.tokens.revoke n
    rw [kid_eq ho] at ht
    dsimp only
    unfold Authorization.revoke kid
    dsimp only
    rw [hfield UserInfo.jwkId]
    exact ht

theorem Good.handlePasswordReset (h : Good c s) (hl : c.lmdb.Stores) {user : CurrentUser}
    {password newPassword : Text}
    (he : s.handlePasswordReset c user password newPassword = some t) :
    Good c t ∧ t.history = s.history := by
  cases user with
  | none => cases he
  | trusted => cases he
  | user o =>
    unfold Authorization.handlePasswordReset at he
    dsimp only at he
    split_ifs at he with hr
    split at he
    · rename_i salt hashed o' hsalt hpass ho
      split_ifs at he
      obtain rfl := Option.some_inj.1 he
      obtain ⟨db, hsync, hdb⟩ := syncUser_eq c
        { s with
          heap := Function.update s.heap o'
            { s.heap o' with password := some (c.hash newPassword salt) } } (s.heap o).username
      rw [hsync]
      have hp := put_edit (c := c)
        (u := { s.heap o' with password := some (c.hash newPassword salt) }) (t := { s with
          heap := Function.update s.heap o'
            { s.heap o' with password := some (c.hash newPassword salt) }
          db := db })
        h.sane ho (h.sane.name _ o' ho) rfl rfl rfl (by simpa using hdb o' ho)
      exact ⟨h.put hp hl (kid_eq ho).symm (secret_eq ho).symm rfl rfl rfl rfl, rfl⟩
    · cases he

theorem Good.handleApikeyRequest (h : Good c s) (hl : c.lmdb.Stores) {key : Text}
    (he : s.handleApikeyRequest c key = some t) : Good c t ∧ t.history = s.history := by
  obtain ⟨o, ho, rfl⟩ := Option.map_eq_some_iff.1 he
  dsimp only
  obtain ⟨db, hsync, hdb⟩ := syncUser_eq c
    { s with
      apiKey := key
      heap := Function.update s.heap o { s.heap o with apiKey := some key } } apiUser
  rw [hsync]
  have hp := put_edit (c := c) (u := { s.heap o with apiKey := some key }) (t := { s with
      apiKey := key
      heap := Function.update s.heap o { s.heap o with apiKey := some key }
      db := db })
    h.sane ho (h.sane.name _ o ho) rfl rfl rfl (by simpa using hdb o ho)
  exact ⟨h.put hp hl (kid_eq ho).symm (secret_eq ho).symm rfl rfl rfl rfl, rfl⟩

theorem decodeJwt_eq_some {token : JwtToken} {tokenType : Text} :
    s.decodeJwt c token tokenType = some o ↔
      (token.header.typ = some "JWT".toList ∧ token.header.alg = some "EdDSA".toList) ∧
      (∃ i k, token.header.kid = some i ∧ s.publicJwks i = some k ∧
        token.signature = some ⟨k, token.header, token.payload⟩) ∧
      token.payload.tokenType = some tokenType ∧ token.payload.iss = some c.issuer ∧
      token.payload.aud = some "Moonraker".toList ∧
      token.payload.exp.all (· < ⌊s.now⌋) = false ∧
      s.users (token.payload.username.getD []) = some o := by
  unfold decodeJwt
  rw [Option.ite_none_left_eq_some, not_or, not_ne_iff, not_ne_iff]
  refine and_congr_right fun _ => ?_
  cases hk : token.header.kid.bind s.publicJwks with
  | none =>
    refine iff_of_false (by simp) ?_
    rintro ⟨⟨i, k, hi, hk', -⟩, -⟩
    simp [hi, hk'] at hk
  | some k =>
    obtain ⟨i, hi, hk⟩ := Option.bind_eq_some_iff.1 hk
    simp only [Option.ite_none_left_eq_some, verify, beq_eq_false_iff_ne, not_ne_iff,
      Bool.not_eq_true]
    refine and_congr_left' ⟨fun hv => ⟨i, k, hi, hk, hv⟩, ?_⟩
    rintro ⟨i', k', hi', hk', hv⟩
    obtain rfl : i = i' := Option.some_inj.1 (hi.symm.trans hi')
    obtain rfl : k = k' := Option.some_inj.1 (hk.symm.trans hk')
    exact hv

theorem Good.handleRefreshJwt (h : Good c s) {token : JwtToken}
    (he : s.handleRefreshJwt c token = some t) :
    Good c t ∧ ∃ n r, t.history = .issued n "access".toList r :: s.history := by
  obtain ⟨o, hdecode, he⟩ := Option.bind_eq_some_iff.1 he
  split at he
  · rename_i key jwkId hsecret hkid
    obtain rfl := Option.some_inj.1 he
    obtain ⟨-, -, -, -, -, -, ho⟩ := decodeJwt_eq_some.1 hdecode
    have hname := h.sane.name _ o ho
    rw [← hname] at ho
    exact ⟨h.issue ((kid_eq ho).trans hkid) ((secret_eq ho).trans hsecret) _ _, _, _, rfl⟩
  · cases he

/-- A user that a login makes has a name that names a record of the database. -/
def Names (c : AuthConfig) (s : Authorization) (args : LoginArgs) (create : Bool) : Prop :=
  s.loginCreates c args create = some true → s.users args.username = none → Storable args.username

/-- The users that a request makes have names that name records of the database. -/
def NamesRequest (c : AuthConfig) (s : Authorization) : AuthRequest → Prop
  | .createUser args => s.Names c args true
  | .login args => s.Names c args false
  | _ => True

/-- The users that an event makes have names that name records of the database. -/
def Guarded (c : AuthConfig) (s : Authorization) : AuthEvent → Prop
  | .http _ request => s.NamesRequest c request
  | .socket _ request => s.NamesRequest c request
  | _ => True

theorem Good.handle (h : Good c s) (hl : c.lmdb.Stores) {user : CurrentUser} {uid : Option ℕ}
    {request : AuthRequest} (hfresh : s.isFresh request = true) (hn : s.NamesRequest c request)
    (he : s.handle c user uid request = some t) :
    Good c t ∧ ∀ n, t.history = .revoked n :: s.history → t.pending = s.pending ++ [n] := by
  have hsame (n : Text) (hs : t.history = s.history) : t.history ≠ .revoked n :: s.history := by
    rw [hs]
    exact (List.cons_ne_self _ _).symm
  cases request with
  | createUser args =>
    obtain ⟨hg, -, r, r', hh⟩ := h.loginJwtUser hl hn (by simp [isFresh] at hfresh; exact hfresh.2) he
    exact ⟨hg, fun n hn => by simp [hh] at hn⟩
  | login args =>
    obtain ⟨hg, -, r, r', hh⟩ := h.loginJwtUser hl hn (by simp [isFresh] at hfresh; exact hfresh.2) he
    exact ⟨hg, fun n hn => by simp [hh] at hn⟩
  | logout =>
    obtain ⟨hg, n, hh, hp⟩ := h.handleLogout hl he
    refine ⟨hg, fun n' hn' => ?_⟩
    rw [hh] at hn'
    obtain rfl : n = n' := by simpa using hn'
    exact hp
  | deleteUser username =>
    obtain ⟨hg, hh, hp⟩ := h.deleteJwtUser hl he
    refine ⟨hg, fun n' hn' => ?_⟩
    rw [hh] at hn'
    obtain rfl : username = n' := by simpa using hn'
    exact hp
  | refreshJwt token =>
    obtain ⟨hg, n, r, hh⟩ := h.handleRefreshJwt he
    exact ⟨hg, fun n hn => by simp [hh] at hn⟩
  | passwordReset password newPassword =>
    obtain ⟨hg, hh⟩ := h.handlePasswordReset hl he
    exact ⟨hg, fun n hn => absurd hn (hsame n hh)⟩
  | apiKey key =>
    obtain ⟨hg, hh⟩ := h.handleApikeyRequest hl he
    exact ⟨hg, fun n hn => absurd hn (hsame n hh)⟩

/-! ## Decoding -/

/-- Signatures are ideal : one that verifies with a key of `public_jwks` was made by the server. -/
def Unforged (s : Authorization) (token : JwtToken) : Prop :=
  ∀ σ i, token.signature = some σ → s.publicJwks i = some σ.key →
    ∃ n type t, IssuedFor s.history n type t ∧ t.signature = some σ

/-- A token that verifies was issued, as it is. -/
theorem Good.issued (h : Good c s) {token : JwtToken} (hu : s.Unforged token) {i k : Text}
    (hk : s.publicJwks i = some k) (hv : token.signature = some ⟨k, token.header, token.payload⟩) :
    ∃ n type, IssuedFor s.history n type token := by
  obtain ⟨n, type, t, ht, hsig⟩ := hu _ i hv hk
  obtain ⟨j, l, hfor, -⟩ := h.tokens n type t ht
  have heq := hsig.symm.trans hfor.signature
  simp only [Option.some_inj, JwtSignature.mk.injEq] at heq
  have htoken : t = token := by
    obtain ⟨header, payload, signature⟩ := t
    obtain ⟨header', payload', signature'⟩ := token
    obtain ⟨-, rfl, rfl⟩ := heq
    exact congrArg _ (hsig.trans hv.symm)
  exact ⟨n, type, htoken ▸ ht⟩

theorem Good.decodeJwt_iff (h : Good c s) {token : JwtToken} (hu : s.Unforged token)
    (n type : Text) :
    (∃ o, s.decodeJwt c token type = some o ∧ s.users n = some o) ↔
      Live s.history n type token ∧ ∃ e, token.payload.exp = some e ∧ ⌊s.now⌋ ≤ e := by
  constructor
  · rintro ⟨o, hdecode, ho⟩
    obtain ⟨-, ⟨i, k, hi, hk, hv⟩, htype, -, -, hexp, ho'⟩ := decodeJwt_eq_some.1 hdecode
    obtain ⟨n', type', ht⟩ := h.issued hu hk hv
    obtain ⟨j, l, hfor, -, howner, -, hlive⟩ := h.tokens n' type' token ht
    obtain rfl : type' = type := Option.some_inj.1 (hfor.tokenType.symm.trans htype)
    rw [hfor.username, Option.getD_some] at ho'
    obtain rfl : n' = n := (h.sane.name _ _ ho').symm.trans (h.sane.name _ _ ho)
    obtain rfl : j = i := by simpa [hfor.header] using hi
    obtain ⟨b, hb, -⟩ := (h.keys.jwks_iff j k).1 hk
    refine ⟨hlive.2 (howner b hb ▸ hb), ?_⟩
    obtain ⟨e, he⟩ := Option.isSome_iff_exists.1 hfor.exp
    exact ⟨e, he, by simpa [he] using hexp⟩
  · rintro ⟨hlive, e, he, hle⟩
    obtain ⟨i, k, hfor, -, -, hjwks, hiff⟩ := h.tokens n type token hlive.issued
    have hkid := hiff.1 hlive
    obtain ⟨k', hk'⟩ := Option.isSome_iff_exists.1 ((h.keys.paired n).symm.trans (by simp [hkid]))
    have hk := (h.keys.jwks_iff i k').2 ⟨n, hkid, hk'⟩
    obtain rfl := hjwks k' hk
    obtain ⟨o, ho, -⟩ := Option.bind_eq_some_iff.1 hkid
    refine ⟨o, decodeJwt_eq_some.2 ⟨?_, ⟨i, k', ?_, hk, hfor.signature⟩, hfor.tokenType, hfor.iss,
      hfor.aud, ?_, ?_⟩, ho⟩
    · simp [hfor.header]
    · rw [hfor.header]
    · simpa [he] using hle
    · rw [hfor.username]
      exact ho

/-! ## Sockets -/

theorem Good.isMade_checkAuthorized (h : Good c s) {credential : Credential} {user : CurrentUser}
    (hm : ∀ user, credential = .oneshot user → s.isMade user = true)
    (he : s.checkAuthorized c credential = some user) : s.isMade user = true := by
  cases credential with
  | token token =>
    obtain ⟨o, hdecode, rfl⟩ := Option.map_eq_some_iff.1 he
    obtain ⟨-, -, -, -, -, -, ho⟩ := decodeJwt_eq_some.1 hdecode
    exact decide_eq_true (h.sane.lt _ o ho)
  | oneshot user' =>
    unfold checkAuthorized at he
    dsimp only at he
    split_ifs at he
    exact Option.some_inj.1 he ▸ hm user' rfl
  | apiKey key =>
    obtain ⟨o, hkey, rfl⟩ := Option.map_eq_some_iff.1 he
    unfold validateApiKey at hkey
    split_ifs at hkey
    exact decide_eq_true (h.sane.lt _ o hkey)
  | trusted =>
    obtain rfl := Option.some_inj.1 he
    rfl
  | nothing => cases he

theorem Good.authenticate (h : Good c s) {uid : ℕ} {socket : AuthSocket} {token : Option JwtToken}
    {apiKey : Option Text} (he : s.authenticate c uid socket token apiKey = some t) :
    Good c t ∧ t.history = s.history := by
  unfold Authorization.authenticate at he
  split at he
  · obtain ⟨o, hdecode, rfl⟩ := Option.map_eq_some_iff.1 he
    obtain ⟨-, -, -, -, -, -, ho⟩ := decodeJwt_eq_some.1 hdecode
    exact ⟨h.setUserInfo (decide_eq_true (h.sane.lt _ o ho)), setUserInfo_history _ _⟩
  · split_ifs at he
    · obtain ⟨o, hkey, rfl⟩ := Option.map_eq_some_iff.1 he
      unfold validateApiKey at hkey
      split_ifs at hkey
      exact ⟨h.setUserInfo (decide_eq_true (h.sane.lt _ o hkey)), setUserInfo_history _ _⟩
    · obtain rfl := Option.some_inj.1 he
      exact ⟨h, rfl⟩
  · obtain rfl := Option.some_inj.1 he
    exact ⟨h, rfl⟩

/-- What a step does to what is kept, and to the delayed events. -/
def Steps (c : AuthConfig) (s t : Authorization) : Prop :=
  Good c t ∧ ∀ n, t.history = .revoked n :: s.history → t.pending = s.pending ++ [n]

theorem Good.steps (h : Good c t) (hh : t.history = s.history) : Steps c s t :=
  ⟨h, fun _ hn => absurd (hh.symm.trans hn) (List.cons_ne_self _ _).symm⟩

theorem Good.handled (h : Good c s) (hl : c.lmdb.Stores) {user : CurrentUser} {uid : Option ℕ}
    {request : AuthRequest} (hfresh : s.isFresh request = true) (hn : s.NamesRequest c request) :
    Steps c s ((s.handle c user uid request).getD s) := by
  cases he : s.handle c user uid request with
  | none => exact h.steps rfl
  | some t => exact h.handle hl hfresh hn he

theorem Good.next (h : Good c s) (hl : c.lmdb.Stores) {e : AuthEvent} (hg : s.Guarded c e)
    (he : s.next c e = some t) : Steps c s t := by
  cases e with
  | wait dt =>
    unfold Authorization.next at he
    dsimp only at he
    split_ifs at he
    obtain rfl := Option.some_inj.1 he
    exact (h.congr (t := { s with now := s.now + dt }) h.made rfl rfl rfl rfl rfl rfl rfl).steps rfl
  | connect uid credential =>
    unfold Authorization.next at he
    dsimp only at he
    split_ifs at he with hc
    obtain rfl := Option.some_inj.1 he
    refine (h.congr (h.made.update fun w hw => ?_) rfl rfl rfl rfl rfl rfl rfl).steps rfl
    obtain rfl := Option.some_inj.1 hw
    cases hu : s.checkAuthorized c credential with
    | none => rfl
    | some user =>
      refine h.isMade_checkAuthorized (fun user' hu' => ?_) hu
      subst hu'
      simp only [Bool.or_eq_true, Bool.not_eq_true', not_or, Bool.not_eq_false] at hc
      exact hc.2
  | close uid =>
    obtain rfl := Option.some_inj.1 he
    exact (h.congr (h.made.update fun w hw => by cases hw) rfl rfl rfl rfl rfl rfl rfl).steps rfl
  | identify uid token apiKey =>
    obtain ⟨socket, -, rfl⟩ := Option.map_eq_some_iff.1 he
    cases ha : s.authenticate c uid socket token apiKey with
    | none => exact h.steps rfl
    | some t =>
      obtain ⟨hg, hh⟩ := h.authenticate ha
      exact hg.steps hh
  | http user request =>
    unfold Authorization.next at he
    dsimp only at he
    split_ifs at he with hc
    obtain rfl := Option.some_inj.1 he
    exact h.handled hl (Bool.and_eq_true_iff.1 hc).2 hg
  | socket uid request =>
    unfold Authorization.next at he
    dsimp only at he
    split at he
    · cases he
    · split_ifs at he with hfresh
      · obtain rfl := Option.some_inj.1 he
        exact h.steps rfl
      · obtain rfl := Option.some_inj.1 he
        exact h.handled hl (by simpa using hfresh) hg
  | loggedOut i =>
    obtain ⟨username, -, rfl⟩ := Option.map_eq_some_iff.1 he
    refine (h.congr (t := { s.processLogout username with pending := s.pending.eraseIdx i }) ?_
      rfl rfl rfl rfl rfl rfl rfl).steps rfl
    intro uid w hw
    obtain ⟨socket, hsocket, rfl⟩ := Option.map_eq_some_iff.1 hw
    unfold onUserLogout
    split_ifs
    · rfl
    · exact h.made uid socket hsocket

section

variable (now : ℚ) (apiKey : Text)

theorem sane_start : Sane (start now apiKey) := by
  have husers (n : Text) (o : ℕ) (ho : (start now apiKey).users n = some o) :
      n = apiUser ∧ o = 0 := by
    by_cases hn : n = apiUser
    · subst hn
      exact ⟨rfl, (by simpa [start] using ho : (0 : ℕ) = o).symm⟩
    · simp [start, hn] at ho
  refine ⟨fun n o ho => ?_, fun n o ho => ?_, fun n o ho => ?_, by simp [start], fun n => ?_⟩
  · rw [(husers n o ho).2]
    exact Nat.one_pos
  · rw [(husers n o ho).1]
    rfl
  · rw [(husers n o ho).1]
    exact ⟨by decide, by decide, by decide⟩
  · by_cases hn : apiUser = n
    · subst hn
      simp [start, Database.getRecord]
    · have hempty : (OrderedDict.empty : OrderedDict Text DbValue).get n = none := rfl
      simp [start, Database.getRecord, hn, Ne.symm hn, hempty]

theorem kid_start (n : Text) : (start now apiKey).kid n = none := by
  by_cases hn : n = apiUser <;> simp [kid, start, newApiUser, hn]

theorem secret_start (n : Text) : (start now apiKey).secret n = none := by
  by_cases hn : n = apiUser <;> simp [secret, start, newApiUser, hn]

theorem good_start : Good c (start now apiKey) where
  made uid w hw := by cases hw
  sane := sane_start now apiKey
  keys :=
    { paired := fun n => by rw [kid_start, secret_start]
      jwks_iff := fun i k => iff_of_false (by simp [start]) fun ⟨n, hn, _⟩ => by
        simp [kid_start] at hn
      owner := fun n n' i hn => by simp [kid_start] at hn
      used := fun n i hn => by simp [kid_start] at hn }
  tokens n type t ht := by cases ht

end

theorem good_of_reachable (hl : c.lmdb.Stores) (h : (system c).ReachableBy (Guarded c) s) :
    Good c s := by
  refine h.invariant (fun s hs => ?_) fun s e t hs hg he => (hs.next hl hg he).1
  obtain ⟨now, apiKey, rfl⟩ := hs
  exact good_start now apiKey

/-! ## Names -/

/-- User records keep their names. -/
structure Keeps (s t : Authorization) : Prop where
  objects : s.objects ≤ t.objects
  username : ∀ o < s.objects, (t.heap o).username = (s.heap o).username

theorem Keeps.refl (s : Authorization) : Keeps s s :=
  ⟨le_rfl, fun _ _ => rfl⟩

theorem Keeps.trans {u : Authorization} (h : Keeps s t) (h' : Keeps t u) : Keeps s u :=
  ⟨h.objects.trans h'.objects,
    fun o ho => (h'.username o (ho.trans_le h.objects)).trans (h.username o ho)⟩

theorem Keeps.usernameOf (h : Keeps s t) {user : CurrentUser} (hm : s.isMade user = true) :
    t.usernameOf user = s.usernameOf user := by
  cases user with
  | none => rfl
  | user o => exact congrArg some (h.username o (of_decide_eq_true hm))
  | trusted => rfl

/-- A user record is replaced with one of its name. -/
theorem Keeps.edit (hheap : t.heap = Function.update s.heap o u)
    (hu : u.username = (s.heap o).username) (ho : t.objects = s.objects) : Keeps s t := by
  refine ⟨ho.ge, fun o' _ => ?_⟩
  rw [hheap]
  by_cases he : o' = o
  · subst he
    rw [Function.update_self, hu]
  · rw [Function.update_of_ne he]

theorem keeps_setUserInfo (uid : ℕ) (user : CurrentUser) : Keeps s (s.setUserInfo uid user) := by
  unfold setUserInfo
  split_ifs
  · exact ⟨le_rfl, fun _ _ => rfl⟩
  · exact .refl s

theorem keeps_syncUser (c : AuthConfig) (s : Authorization) (n : Text) :
    Keeps s (s.syncUser c n) := by
  obtain ⟨db, hsync, -⟩ := syncUser_eq c s n
  rw [hsync]
  exact ⟨le_rfl, fun _ _ => rfl⟩

theorem keeps_revoke (n : Text) (jwkId : Option Text) : Keeps s (s.revoke n jwkId) :=
  ⟨le_rfl, fun _ _ => rfl⟩

theorem keeps_obtainUser {args : LoginArgs} {create : Bool}
    (he : s.obtainUser c args create = some (t, o)) : Keeps s t := by
  unfold obtainUser at he
  split at he
  · cases he
  · split_ifs at he
    simp only [Option.some_inj, Prod.mk.injEq] at he
    obtain ⟨rfl, -⟩ := he
    refine Keeps.trans ⟨Nat.le_succ _, fun o ho => ?_⟩ (keeps_syncUser _ _ _)
    exact congrArg _ (Function.update_of_ne ho.ne _ _)
  · obtain ⟨o', -, heq⟩ := Option.map_eq_some_iff.1 he
    simp only [Prod.mk.injEq] at heq
    obtain ⟨rfl, -⟩ := heq
    exact .refl s

theorem keeps_ensureKey {args : LoginArgs} {key jwkId : Text}
    (he : s.ensureKey c o args = some (t, key, jwkId)) : Keeps s t := by
  unfold Authorization.ensureKey at he
  split at he
  · obtain ⟨i, -, heq⟩ := Option.map_eq_some_iff.1 he
    simp only [Prod.mk.injEq] at heq
    obtain ⟨rfl, -⟩ := heq
    exact .refl s
  · simp only [Option.some_inj, Prod.mk.injEq] at he
    obtain ⟨rfl, -⟩ := he
    have hedit : Keeps s { s with
        heap := Function.update s.heap o ((s.heap o).setKey (some args.seed) (some args.jwkId))
        usedKeys := args.seed :: s.usedKeys
        usedIds := args.jwkId :: s.usedIds } := .edit rfl rfl rfl
    have hsync := hedit.trans (keeps_syncUser c _ args.username)
    exact ⟨hsync.objects, hsync.username⟩

theorem keeps_loginJwtUser {uid : Option ℕ} {args : LoginArgs} {create : Bool}
    (he : s.loginJwtUser c uid args create = some t) : Keeps s t := by
  obtain ⟨⟨s₁, o⟩, hobtain, he⟩ := Option.bind_eq_some_iff.1 he
  obtain ⟨⟨s₂, key, jwkId⟩, hensure, rfl⟩ := Option.map_eq_some_iff.1 he
  have hissue : Keeps s₂ ((s₂.issueAccess c args.username jwkId key).issue c args.username jwkId key
      "refresh".toList (c.loginTimeout * 86400)) := ⟨le_rfl, fun _ _ => rfl⟩
  have h := ((keeps_obtainUser hobtain).trans (keeps_ensureKey hensure)).trans hissue
  dsimp only
  split
  · exact h.trans (keeps_setUserInfo _ _)
  · exact h

theorem keeps_handle {user : CurrentUser} {uid : Option ℕ} {request : AuthRequest}
    (he : s.handle c user uid request = some t) : Keeps s t := by
  cases request with
  | createUser args => exact keeps_loginJwtUser he
  | login args => exact keeps_loginJwtUser he
  | logout =>
    obtain ⟨n, -, he⟩ := Option.bind_eq_some_iff.1 he
    split_ifs at he
    obtain ⟨o, -, rfl⟩ := Option.map_eq_some_iff.1 he
    exact (Keeps.edit (o := o) (t := { s with
      heap := Function.update s.heap o ((s.heap o).setKey none none) }) rfl rfl rfl).trans
        ((keeps_syncUser _ _ _).trans (keeps_revoke _ _))
  | deleteUser username =>
    unfold Authorization.handle Authorization.deleteJwtUser at he
    dsimp only at he
    split_ifs at he
    obtain ⟨o, -, rfl⟩ := Option.map_eq_some_iff.1 he
    exact ⟨le_rfl, fun _ _ => rfl⟩
  | refreshJwt token =>
    obtain ⟨o, -, he⟩ := Option.bind_eq_some_iff.1 he
    split at he
    · obtain rfl := Option.some_inj.1 he
      exact ⟨le_rfl, fun _ _ => rfl⟩
    · cases he
  | passwordReset password newPassword =>
    unfold Authorization.handle Authorization.handlePasswordReset at he
    dsimp only at he
    split at he
    · split_ifs at he
      split at he
      · rename_i salt hashed o' hsalt hpass ho
        split_ifs at he
        obtain rfl := Option.some_inj.1 he
        have hedit : Keeps s { s with
            heap := Function.update s.heap o'
              { s.heap o' with password := some (c.hash newPassword salt) } } := .edit rfl rfl rfl
        exact hedit.trans (keeps_syncUser _ _ _)
      · cases he
    · cases he
  | apiKey key =>
    obtain ⟨o, -, rfl⟩ := Option.map_eq_some_iff.1 he
    have hedit : Keeps s { s with
        apiKey := key
        heap := Function.update s.heap o { s.heap o with apiKey := some key } } := .edit rfl rfl rfl
    exact hedit.trans (keeps_syncUser _ _ _)

theorem keeps_authenticate {uid : ℕ} {socket : AuthSocket} {token : Option JwtToken}
    {apiKey : Option Text} (he : s.authenticate c uid socket token apiKey = some t) :
    Keeps s t := by
  unfold Authorization.authenticate at he
  split at he
  · obtain ⟨o, -, rfl⟩ := Option.map_eq_some_iff.1 he
    exact keeps_setUserInfo _ _
  · split_ifs at he
    · obtain ⟨o, -, rfl⟩ := Option.map_eq_some_iff.1 he
      exact keeps_setUserInfo _ _
    · exact Option.some_inj.1 he ▸ .refl s
  · exact Option.some_inj.1 he ▸ .refl s

theorem keeps_getD {r : Option Authorization} (h : ∀ t, r = some t → Keeps s t) :
    Keeps s (r.getD s) := by
  cases hr : r with
  | none => exact .refl s
  | some t => exact h t hr

theorem keeps_next {e : AuthEvent} (he : s.next c e = some t) : Keeps s t := by
  cases e with
  | wait dt =>
    unfold Authorization.next at he
    dsimp only at he
    split_ifs at he
    exact Option.some_inj.1 he ▸ ⟨le_rfl, fun _ _ => rfl⟩
  | connect uid credential =>
    unfold Authorization.next at he
    dsimp only at he
    split_ifs at he
    exact Option.some_inj.1 he ▸ ⟨le_rfl, fun _ _ => rfl⟩
  | close uid => exact Option.some_inj.1 he ▸ ⟨le_rfl, fun _ _ => rfl⟩
  | identify uid token apiKey =>
    obtain ⟨socket, -, rfl⟩ := Option.map_eq_some_iff.1 he
    exact keeps_getD fun t => keeps_authenticate
  | http user request =>
    unfold Authorization.next at he
    dsimp only at he
    split_ifs at he
    exact Option.some_inj.1 he ▸ keeps_getD fun t => keeps_handle
  | socket uid request =>
    unfold Authorization.next at he
    dsimp only at he
    split at he
    · cases he
    · split_ifs at he
      · exact Option.some_inj.1 he ▸ .refl s
      · exact Option.some_inj.1 he ▸ keeps_getD fun t => keeps_handle
  | loggedOut i =>
    obtain ⟨username, -, rfl⟩ := Option.map_eq_some_iff.1 he
    exact ⟨le_rfl, fun _ _ => rfl⟩

theorem keeps_run {as : List AuthEvent} (h : (system c).run s as = some t) : Keeps s t :=
  (System.run_rel (I := fun _ => True) Keeps.refl (fun _ _ _ => Keeps.trans)
    (fun _ _ _ _ he => ⟨trivial, keeps_next he⟩) trivial h).2

/-- After the delayed event of a user no socket is authorised as that user. -/
theorem usernameOf_loggedOut {i : ℕ} (hi : s.pending[i]? = some n)
    (he : s.next c (.loggedOut i) = some t) {uid : ℕ} {socket : AuthSocket}
    (hw : t.sockets uid = some socket) : t.usernameOf socket.userInfo ≠ some n := by
  obtain ⟨n', hn', rfl⟩ := Option.map_eq_some_iff.1 he
  obtain rfl := Option.some_inj.1 (hi.symm.trans hn')
  obtain ⟨old, -, rfl⟩ := Option.map_eq_some_iff.1 hw
  unfold onUserLogout
  split_ifs with hold
  · exact nofun
  · exact hold

/-- In every run that makes only users whose names name records of the database, a token that is not
forged decodes to a user if and only if it was issued for the user with its type, has not expired, and
neither a logout nor a deletion of the user took place since; the public keys are the keys of the
users, each under its key id; the stored users are the users; and a logout or a deletion leads to a
delayed event, after which no socket that was authorised as the user before is so any more. -/
theorem revocation (c : AuthConfig) (hl : c.lmdb.Stores) (s : Authorization)
    (h : (system c).ReachableBy (Guarded c) s) :
    (∀ token, s.Unforged token → ∀ n type,
      (∃ o, s.decodeJwt c token type = some o ∧ s.users n = some o) ↔
        Live s.history n type token ∧ ∃ e, token.payload.exp = some e ∧ ⌊s.now⌋ ≤ e) ∧
    (∀ i k, s.publicJwks i = some k ↔
      ∃ n o, s.users n = some o ∧ (s.heap o).jwkId = some i ∧ (s.heap o).jwtSecret = some k) ∧
    (∀ n o, s.users n = some o →
      (s.heap o).jwkId.isSome = (s.heap o).jwtSecret.isSome ∧
      ∀ n' o' i, s.users n' = some o' → (s.heap o).jwkId = some i → (s.heap o').jwkId = some i →
        n = n') ∧
    (∀ n, s.db.getRecord authorizedUsers n = (s.users n).map fun o => (s.heap o).record) ∧
    ∀ e t n, Guarded c s e → s.next c e = some t → t.history = .revoked n :: s.history →
      n ∈ t.pending ∧
      ∀ as t₁ i t₂, (system c).run t as = some t₁ → t₁.pending[i]? = some n →
        t₁.next c (.loggedOut i) = some t₂ →
        ∀ uid old new, s.sockets uid = some old → s.usernameOf old.userInfo = some n →
          t₂.sockets uid = some new →
          new.userInfo ≠ old.userInfo ∧ t₂.usernameOf new.userInfo ≠ some n := by
  have hg := good_of_reachable hl h
  refine ⟨fun token hu n type => hg.decodeJwt_iff hu n type, fun i k => ?_, fun n o ho => ⟨?_, ?_⟩,
    hg.sane.stored, fun e t n hguard he hh => ⟨?_, ?_⟩⟩
  · rw [hg.keys.jwks_iff]
    refine exists_congr fun n => ?_
    cases ho : s.users n with
    | none => simp [kid, ho]
    | some o => simp [kid_eq ho, secret_eq ho]
  · have hp := hg.keys.paired n
    rwa [kid_eq ho, secret_eq ho] at hp
  · intro n' o' i ho' hi hi'
    exact hg.keys.owner n n' i ((kid_eq ho).trans hi) ((kid_eq ho').trans hi')
  · rw [(hg.next hl hguard he).2 n hh]
    exact List.mem_append_right _ List.mem_cons_self
  · intro as t₁ i t₂ has hi he₂ uid old new hold hn hnew
    have hout := usernameOf_loggedOut hi he₂ hnew
    have hkeeps := ((keeps_next he).trans (keeps_run has)).trans (keeps_next he₂)
    refine ⟨fun heq => hout ?_, hout⟩
    rw [heq, hkeeps.usernameOf (hg.made uid old hold)]
    exact hn

/-- A configuration with a database that stores everything. -/
def permissive : AuthConfig where
  issuer := "http://printer:7125".toList
  loginTimeout := 90
  ldap := false
  enableApiKey := true
  hash password salt := salt ++ password
  lmdb := Database.permissive

theorem stores_permissive : permissive.lmdb.Stores :=
  ⟨fun _ _ _ _ _ => rfl, fun _ => rfl⟩

/-- The making of a user. -/
def making (username : String) : AuthEvent :=
  .http .trusted (.createUser
    { username := username.toList, password := "pw".toList, source := some .moonraker
      ldapAccepts := false, salt := "salt".toList, seed := "key".toList, jwkId := "id".toList })

/-- A new installation where one user was made. -/
def afterMaking (username : String) : Authorization :=
  ((start 0 "api".toList).next permissive (making username)).getD (start 0 "api".toList)

theorem next_making (username : String) (h : ((start 0 "api".toList).next permissive
    (making username)).isSome = true) :
    (system permissive).next (start 0 "api".toList) (making username) =
      some (afterMaking username) := by
  obtain ⟨t, ht⟩ := Option.isSome_iff_exists.1 h
  rw [afterMaking, ht, Option.getD_some]
  exact ht

/-- Where one user was made, whose name has no dot. -/
theorem revocation_made :
    (system permissive).ReachableBy (Guarded permissive) (afterMaking "ada") ∧
      ∀ n, (afterMaking "ada").db.getRecord authorizedUsers n =
        ((afterMaking "ada").users n).map fun o => ((afterMaking "ada").heap o).record := by
  have hreach : (system permissive).ReachableBy (Guarded permissive) (afterMaking "ada") := by
    refine .step (.init ⟨0, "api".toList, rfl⟩) ?_ (next_making "ada" (by decide +kernel))
    exact fun _ _ => ⟨by decide, by decide, by decide⟩
  exact ⟨hreach, (revocation permissive stores_permissive _ hreach).2.2.2.1⟩

/-- A user with a dot in the name is not found in the database. -/
theorem not_stored : ¬∀ (c : AuthConfig) (s : Authorization), c.lmdb.Stores →
    (system c).Reachable s → ∀ n,
      s.db.getRecord authorizedUsers n = (s.users n).map fun o => (s.heap o).record := by
  intro h
  have hreach : (system permissive).Reachable (afterMaking "a.b") :=
    .step (.init ⟨0, "api".toList, rfl⟩) trivial (next_making "a.b" (by decide +kernel))
  have hstored := congrArg Option.isSome (h _ _ stores_permissive hreach "a.b".toList)
  revert hstored
  decide +kernel

end Authorization

end Thinker
