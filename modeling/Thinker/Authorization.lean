import Thinker.Database
import Thinker.Transition
import Mathlib.Algebra.Order.Floor.Ring
import Mathlib.Data.Rat.Floor

/-!
# Users and their tokens

The handlers of `authorization.py` that change users, and what `websockets.py` does about a user
that logs out. A user record is an object that `users` and the sockets refer to, so a socket goes
on with a record whose user was deleted. It is kept in the database as well, and its public key in
`public_jwks`.

Signatures are ideal : one that is made with a key of the server was made by the server, and
verifies with that key only and for what was signed. Keys, key ids and salts come with the request
that makes them, the first two fresh. A token is what its parts decode to. A write to the database
is done when the request is; errors in it are not looked at, as in the code.

Beside the state a run keeps the tokens that were issued and the users that were logged out or
deleted, the last first.
-/

namespace Thinker

/-- `AUTH_SOURCES`. -/
inductive AuthSource where
  | moonraker
  | ldap
  deriving DecidableEq, Repr

/-- A user record. -/
structure UserInfo where
  username : Text
  password : Option Text
  salt : Option Text
  source : Option AuthSource
  createdOn : ℚ
  jwtSecret : Option Text
  jwkId : Option Text
  apiKey : Option Text

/-- A user record with another key and key id, or without. -/
def UserInfo.setKey (u : UserInfo) (jwtSecret jwkId : Option Text) : UserInfo :=
  { u with jwtSecret := jwtSecret, jwkId := jwkId }

/-- A user record as it is stored. -/
def UserInfo.record (u : UserInfo) : DbValue :=
  let field (key : String) (value : Option DbScalar) : List (Text × DbValue) :=
    (value.map fun v => (key.toList, .leaf v)).toList
  let source : AuthSource → DbScalar
    | .moonraker => .str "moonraker".toList
    | .ldap => .str "ldap".toList
  .node <|
    field "username" (some (.str u.username)) ++ field "password" (u.password.map .str) ++
      field "salt" (u.salt.map .str) ++ field "source" (u.source.map source) ++
      field "created_on" (some (.float u.createdOn)) ++
      field "jwt_secret" (u.jwtSecret.map .str) ++ field "jwk_id" (u.jwkId.map .str) ++
      field "api_key" (u.apiKey.map .str)

/-- The header of a token. -/
structure JwtHeader where
  typ : Option Text
  alg : Option Text
  kid : Option Text
  deriving DecidableEq

/-- The payload of a token. -/
structure JwtPayload where
  iss : Option Text
  aud : Option Text
  iat : Option ℤ
  exp : Option ℤ
  username : Option Text
  tokenType : Option Text
  deriving DecidableEq

/-- A signature : the key that made it, and what was signed. -/
structure JwtSignature where
  key : Text
  header : JwtHeader
  payload : JwtPayload
  deriving DecidableEq

/-- A token, with a signature if its last part is one. -/
structure JwtToken where
  header : JwtHeader
  payload : JwtPayload
  signature : Option JwtSignature
  deriving DecidableEq

/-- A token was issued for a user, or the user was logged out or deleted. -/
inductive TokenRecord where
  | issued (username tokenType : Text) (token : JwtToken)
  | revoked (username : Text)

/-- The user of a request or of a socket. -/
inductive CurrentUser where
  | none
  | user (o : ℕ)
  /-- The user of a trusted connection. -/
  | trusted
  deriving DecidableEq

/-- A `WebSocket`. -/
structure AuthSocket where
  userInfo : CurrentUser
  needAuth : Bool
  deriving DecidableEq

/-- The options of the component. `hash` is `pbkdf2_hmac`, with a password and a salt. -/
structure AuthConfig where
  issuer : Text
  loginTimeout : ℤ
  ldap : Bool
  enableApiKey : Bool
  hash : Text → Text → Text
  lmdb : Lmdb

/-- The arguments of a login, whether `ldap` accepts them, and the salt, the key and the key id that
it makes if it needs them. A source that is not in `AUTH_SOURCES` is `none`. -/
structure LoginArgs where
  username : Text
  password : Text
  source : Option AuthSource
  ldapAccepts : Bool
  salt : Text
  seed : Text
  jwkId : Text

/-- A request about users. -/
inductive AuthRequest where
  | createUser (args : LoginArgs)
  | login (args : LoginArgs)
  | logout
  | deleteUser (username : Text)
  | refreshJwt (refreshToken : JwtToken)
  | passwordReset (password newPassword : Text)
  /-- A POST of `/access/api_key`, which makes a key. -/
  | apiKey (key : Text)

/-- What a connection comes with, and `check_authorized` accepts or not. -/
inductive Credential where
  | token (token : JwtToken)
  /-- A oneshot token that was given to a user. -/
  | oneshot (user : CurrentUser)
  | apiKey (key : Text)
  /-- An address that is trusted. -/
  | trusted
  | nothing

/-- What happens to users and sockets. -/
inductive AuthEvent where
  | wait (dt : ℚ)
  | connect (uid : ℕ) (credential : Credential)
  | close (uid : ℕ)
  | identify (uid : ℕ) (token : Option JwtToken) (apiKey : Option Text)
  /-- A request by HTTP, with the user that it was authorised as, who may have been deleted. -/
  | http (user : CurrentUser) (request : AuthRequest)
  | socket (uid : ℕ) (request : AuthRequest)
  /-- A delayed event about a user that logged out or was deleted. -/
  | loggedOut (i : ℕ)

/-- `Authorization`, with the sockets and the database. -/
structure Authorization where
  now : ℚ
  users : Text → Option ℕ
  heap : ℕ → UserInfo
  /-- The number of user records that were made. -/
  objects : ℕ
  publicJwks : Text → Option Text
  apiKey : Text
  db : Database
  sockets : ℕ → Option AuthSocket
  /-- The users of the delayed events. -/
  pending : List Text
  usedKeys : List Text
  usedIds : List Text
  history : List TokenRecord

namespace Authorization

/-- `API_USER`. -/
def apiUser : Text :=
  "_API_KEY_USER_".toList

/-- `TRUSTED_USER`. -/
def trustedUser : Text :=
  "_TRUSTED_USER_".toList

/-- `RESERVED_USERS`. -/
def reservedUsers : List Text :=
  [apiUser, trustedUser]

/-- The namespace of the users. -/
def authorizedUsers : Text :=
  "authorized_users".toList

variable (c : AuthConfig) (s : Authorization)

/-- `user_info['username']`. -/
def usernameOf : CurrentUser → Option Text
  | .none => none
  | .user o => some (s.heap o).username
  | .trusted => some trustedUser

/-- `_sync_user`. -/
def syncUser (username : Text) : Authorization :=
  match s.users username with
  | none => s
  | some o =>
    { s with db := (s.db.insertImpl c.lmdb authorizedUsers (.string username)
        (s.heap o).record).1 }

/-! ## Tokens -/

/-- `_generate_jwt`. -/
def generateJwt (username jwkId key tokenType : Text) (expTime : ℤ) : JwtToken :=
  let curtime := ⌊s.now⌋
  let header : JwtHeader := ⟨some "JWT".toList, some "EdDSA".toList, some jwkId⟩
  let payload : JwtPayload :=
    { iss := some c.issuer, aud := some "Moonraker".toList, iat := some curtime
      exp := some (curtime + expTime), username := some username, tokenType := some tokenType }
  ⟨header, payload, some ⟨key, header, payload⟩⟩

/-- A token is issued. -/
def issue (username jwkId key tokenType : Text) (expTime : ℤ) : Authorization :=
  { s with
    history :=
      .issued username tokenType (s.generateJwt c username jwkId key tokenType expTime) ::
        s.history }

/-- A token is issued that expires after `JWT_EXP_TIME`. -/
def issueAccess (username jwkId key : Text) : Authorization :=
  s.issue c username jwkId key "access".toList 3600

/-- `public_key.verify`. -/
def verify (publicKey : Text) (token : JwtToken) : Bool :=
  token.signature == some ⟨publicKey, token.header, token.payload⟩

/-- `decode_jwt`, with the user record that it returns. -/
def decodeJwt (token : JwtToken) (tokenType : Text) : Option ℕ :=
  if token.header.typ ≠ some "JWT".toList ∨ token.header.alg ≠ some "EdDSA".toList then none
  else
    match token.header.kid.bind s.publicJwks with
    | none => none
    | some publicKey =>
      if verify publicKey token = false then none
      else if token.payload.tokenType ≠ some tokenType then none
      else if token.payload.iss ≠ some c.issuer then none
      else if token.payload.aud ≠ some "Moonraker".toList then none
      else if token.payload.exp.all (· < ⌊s.now⌋) then none
      else s.users (token.payload.username.getD [])

/-! ## Requests -/

/-- Whether a login is to make the user, if its source and its name allow it. -/
def loginCreates (args : LoginArgs) (create : Bool) : Option Bool :=
  match args.source with
  | none => none
  | some source =>
    if args.username ∈ reservedUsers then none
    else
      match source with
      | .moonraker => some create
      | .ldap =>
        if create || !c.ldap || !args.ldapAccepts then none
        else some (s.users args.username).isNone

/-- The record of a new user. -/
def newUser (args : LoginArgs) : UserInfo where
  username := args.username
  password := some (c.hash args.password args.salt)
  salt := some args.salt
  source := args.source
  createdOn := s.now
  jwtSecret := none
  jwkId := none
  apiKey := none

/-- A user is made. -/
def createUser (args : LoginArgs) : Authorization :=
  let s :=
    { s with
      heap := Function.update s.heap s.objects (s.newUser c args)
      objects := s.objects + 1
      users := Function.update s.users args.username (some s.objects) }
  s.syncUser c args.username

/-- The user that logs in, with source and password as they are registered. -/
def findUser (args : LoginArgs) : Option ℕ :=
  (s.users args.username).bind fun o =>
    if (s.heap o).source.getD .moonraker ≠ args.source.getD .moonraker then none
    else
      match (s.heap o).salt, (s.heap o).password with
      | some salt, some password => if c.hash args.password salt = password then some o else none
      | _, _ => none

/-- The first part of `_login_jwt_user` : the user, who may be new. -/
def obtainUser (args : LoginArgs) (create : Bool) : Option (Authorization × ℕ) :=
  match s.loginCreates c args create with
  | none => none
  | some true =>
    if (s.users args.username).isSome then none else some (s.createUser c args, s.objects)
  | some false => (s.findUser c args).map fun o => (s, o)

/-- The second part of `_login_jwt_user` : the key and the key id of the user, which may be new. -/
def ensureKey (o : ℕ) (args : LoginArgs) : Option (Authorization × Text × Text) :=
  match (s.heap o).jwtSecret with
  | some key => (s.heap o).jwkId.map fun jwkId => (s, key, jwkId)
  | none =>
    let s :=
      { s with
        heap := Function.update s.heap o ((s.heap o).setKey (some args.seed) (some args.jwkId))
        usedKeys := args.seed :: s.usedKeys
        usedIds := args.jwkId :: s.usedIds }
    let s := s.syncUser c args.username
    some ({ s with publicJwks := Function.update s.publicJwks args.jwkId (some args.seed) },
      args.seed, args.jwkId)

/-- The setter of `user_info` of a socket. -/
def setUserInfo (uid : ℕ) (user : CurrentUser) : Authorization :=
  if (s.sockets uid).isSome then
    { s with sockets := Function.update s.sockets uid (some ⟨user, false⟩) }
  else s

/-- `_login_jwt_user`. `none` stands for an error. -/
def loginJwtUser (uid : Option ℕ) (args : LoginArgs) (create : Bool) : Option Authorization :=
  (s.obtainUser c args create).bind fun (s, o) =>
    (s.ensureKey c o args).map fun (s, key, jwkId) =>
      let s := s.issueAccess c args.username jwkId key
      let s := s.issue c args.username jwkId key "refresh".toList (c.loginTimeout * 86400)
      match uid, create with
      | some uid, false => s.setUserInfo uid (.user o)
      | _, _ => s

/-- The user of a key id is logged out or deleted. -/
def revoke (username : Text) (jwkId : Option Text) : Authorization :=
  { s with
    publicJwks := jwkId.elim s.publicJwks fun i => Function.update s.publicJwks i none
    pending := s.pending ++ [username]
    history := .revoked username :: s.history }

/-- `_handle_logout`. -/
def handleLogout (user : CurrentUser) : Option Authorization :=
  (s.usernameOf user).bind fun username =>
    if username ∈ reservedUsers then none
    else
      (s.users username).map fun o =>
        let jwkId := (s.heap o).jwkId
        let s :=
          { s with heap := Function.update s.heap o ((s.heap o).setKey none none) }
        (s.syncUser c username).revoke username jwkId

/-- `_delete_jwt_user`. -/
def deleteJwtUser (user : CurrentUser) (username : Text) : Option Authorization :=
  if s.usernameOf user = some username then none
  else if username ∈ reservedUsers then none
  else
    (s.users username).map fun o =>
      let s' := { s with
        users := Function.update s.users username none
        db := (s.db.deleteImpl c.lmdb authorizedUsers (.string username) false).1 }
      s'.revoke username (s.heap o).jwkId

/-- `_handle_refresh_jwt`. -/
def handleRefreshJwt (refreshToken : JwtToken) : Option Authorization :=
  (s.decodeJwt c refreshToken "refresh".toList).bind fun o =>
    match (s.heap o).jwtSecret, (s.heap o).jwkId with
    | some key, some jwkId => some (s.issueAccess c (s.heap o).username jwkId key)
    | _, _ => none

/-- `_handle_password_reset`. The old password is that of the user record of the request, the new one
that of the user of its name. -/
def handlePasswordReset (user : CurrentUser) (password newPassword : Text) :
    Option Authorization :=
  match user with
  | .user o =>
    let userInfo := s.heap o
    if userInfo.source = some .ldap ∨ userInfo.username ∈ reservedUsers then none
    else
      match userInfo.salt, userInfo.password, s.users userInfo.username with
      | some salt, some hashed, some o =>
        if c.hash password salt = hashed then
          let s :=
            { s with
              heap := Function.update s.heap o
                { s.heap o with password := some (c.hash newPassword salt) } }
          some (s.syncUser c userInfo.username)
        else none
      | _, _, _ => none
  | _ => none

/-- `_handle_apikey_request`. -/
def handleApikeyRequest (key : Text) : Option Authorization :=
  (s.users apiUser).map fun o =>
    let s := { s with
      apiKey := key
      heap := Function.update s.heap o { s.heap o with apiKey := some key } }
    s.syncUser c apiUser

/-- The handler of a request. -/
def handle (user : CurrentUser) (uid : Option ℕ) : AuthRequest → Option Authorization
  | .createUser args => s.loginJwtUser c uid args true
  | .login args => s.loginJwtUser c uid args false
  | .logout => s.handleLogout c user
  | .deleteUser username => s.deleteJwtUser c user username
  | .refreshJwt token => s.handleRefreshJwt c token
  | .passwordReset password newPassword => s.handlePasswordReset c user password newPassword
  | .apiKey key => s.handleApikeyRequest c key

/-! ## Sockets -/

/-- `validate_api_key`. -/
def validateApiKey (key : Text) : Option ℕ :=
  if c.enableApiKey && !key.isEmpty && key == s.apiKey then s.users apiUser else none

/-- `check_authorized`, as far as a socket is concerned. -/
def checkAuthorized : Credential → Option CurrentUser
  | .token token => (s.decodeJwt c token "access".toList).map .user
  | .oneshot user => if user = .none then none else some user
  | .apiKey key => (s.validateApiKey c key).map .user
  | .trusted => some .trusted
  | .nothing => none

/-- `authenticate`. -/
def authenticate (uid : ℕ) (socket : AuthSocket) (token : Option JwtToken) (apiKey : Option Text) :
    Option Authorization :=
  match token, apiKey with
  | some token, _ =>
    (s.decodeJwt c token "access".toList).map fun o => s.setUserInfo uid (.user o)
  | none, some key =>
    if socket.userInfo = .none then
      (s.validateApiKey c key).map fun o => s.setUserInfo uid (.user o)
    else some s
  | none, none => some s

/-- `on_user_logout`. -/
def onUserLogout (username : Text) (socket : AuthSocket) : AuthSocket :=
  if s.usernameOf socket.userInfo = some username then ⟨.none, true⟩ else socket

/-- `_process_logout`. -/
def processLogout (username : Text) : Authorization :=
  { s with sockets := fun uid => (s.sockets uid).map (s.onUserLogout username) }

/-- The paths of `permitted_paths`. -/
def isPermitted : AuthRequest → Bool
  | .login _ => true
  | .refreshJwt _ => true
  | _ => false

/-- Whether a request comes with a fresh key and key id. -/
def isFresh : AuthRequest → Bool
  | .createUser args => args.seed ∉ s.usedKeys && args.jwkId ∉ s.usedIds
  | .login args => args.seed ∉ s.usedKeys && args.jwkId ∉ s.usedIds
  | _ => true

/-- Whether a user record was made. -/
def isMade : CurrentUser → Bool
  | .user o => decide (o < s.objects)
  | _ => true

/-- What an event does. A request that raises an error changes nothing. -/
def next : AuthEvent → Option Authorization
  | .wait dt => if 0 ≤ dt then some { s with now := s.now + dt } else none
  | .connect uid credential =>
    if (s.sockets uid).isSome || !(match credential with
      | .oneshot user => s.isMade user
      | _ => true) then none
    else
      let socket : AuthSocket :=
        match s.checkAuthorized c credential with
        | some user => ⟨user, false⟩
        | none => ⟨.none, true⟩
      some { s with sockets := Function.update s.sockets uid (some socket) }
  | .close uid => some { s with sockets := Function.update s.sockets uid none }
  | .identify uid token apiKey =>
    (s.sockets uid).map fun socket => (s.authenticate c uid socket token apiKey).getD s
  | .http user request =>
    if s.isMade user && s.isFresh request then some ((s.handle c user none request).getD s)
    else none
  | .socket uid request =>
    match s.sockets uid with
    | none => none
    | some socket =>
      if !s.isFresh request then none
      else if socket.needAuth && !isPermitted request then some s
      else some ((s.handle c socket.userInfo (some uid) request).getD s)
  | .loggedOut i =>
    (s.pending[i]?).map fun username =>
      { s.processLogout username with pending := s.pending.eraseIdx i }

/-! ## Runs -/

/-- The user of the API key. -/
def newApiUser (now : ℚ) (apiKey : Text) : UserInfo where
  username := apiUser
  password := none
  salt := none
  source := none
  createdOn := now
  jwtSecret := none
  jwkId := none
  apiKey := some apiKey

/-- A new installation. -/
def start (now : ℚ) (apiKey : Text) : Authorization where
  now := now
  users := Function.update (fun _ => none) apiUser (some 0)
  heap _ := newApiUser now apiKey
  objects := 1
  publicJwks _ := none
  apiKey := apiKey
  db := ⟨OrderedDict.empty.put authorizedUsers
    (OrderedDict.empty.put apiUser (newApiUser now apiKey).record)⟩
  sockets _ := none
  pending := []
  usedKeys := []
  usedIds := []
  history := []

/-- Runs of a new installation. -/
def system : System Authorization AuthEvent where
  init s := ∃ now apiKey, s = start now apiKey
  next s := s.next c

end Authorization

end Thinker
