import Musicat.Lib.Lists
import Musicat.Lib.Table
import Musicat.Server.Cookie
import Musicat.Server.Json
import Musicat.Server.OAuthLedger

/-!
# Logging in

`get_oauth_handler` hands out a state with the redirect it was asked for, and a
timer takes it back after a while. `handle_post_login_body` wants such a state
in the body, and takes it out of the map before it looks at the rest; the task
it starts asks Discord for a token with the code of the body, and for the user
of the token, and only then answers with a cookie. What Discord granted is kept
in the database and for a while in a cache, until the user logs out.
`oauthStep_moves` says that the threads of the OAuth states move the map as the
steps here do.

`sessions_earned` accounts for every state handed out, and for every cookie.
-/

namespace Musicat.Server

open Lib

/-! ## The answers of Discord -/

/-- `curlpp_response_t`. -/
structure CurlppResponse where
  status : Int
  headerSize : Nat
  response : String

/-- The requests to Discord. -/
structure Services where
  discordPostCreds : (creds : String) → CurlppResponse
  discordGetMe : (type token : String) → CurlppResponse

/-- The libraries and the configuration. -/
structure LoginEnv where
  /-- `nlohmann::json::parse`. -/
  parse : String → Option Json
  dump : Json → String
  toSnowflake : String → Nat
  /-- The token `jwt::create` builds for a user, signed with a secret. -/
  sign : (userId secret : String) → String
  verifyJwtToken : List Char → String
  corsEnabledOrigins : List String
  /-- What `get_link` returns. -/
  oauthLink : String
  shaId : Nat
  shaSecret : String
  jwtSecret : String

/-- Why `handle_post_login_creds` stops. -/
inductive CredsStop where
  /-- An exception, which leaves the task. -/
  | thrown
  | message (text : String)
  deriving DecidableEq, Repr

/-- What Discord granted: the user, the answer with the token, and the user's object. -/
structure Grant where
  uid : String
  udata : Json
  user : Json

/-- `j.is_string () ? j.get<std::string> () : ""`. -/
def stringOrEmpty : Json → String
  | .string s => s
  | _ => ""

/-- `erase`. -/
def Json.erase (key : String) : Json → Json
  | .object fields => .object (fields.filter (·.1 != key))
  | j => j

/-- `size`. -/
def Json.size : Json → Nat
  | .null => 0
  | .array items => items.length
  | .object fields => fields.length
  | _ => 1

/-- `set_header`. -/
def setHeader (key value : String) (headers : HeaderV) : HeaderV :=
  if headers.any (·.1 = key) then updateP (·.1 = key) (fun i => (i.1, value)) headers
  else headers ++ [(key, value)]

def setContentTypeJson (headers : HeaderV) : HeaderV :=
  setHeader "Content-Type" "application/json" headers

namespace LoginEnv

variable (env : LoginEnv)

/-- What `process_curlpp_response_t` parses: `c_str ()` ends at the first zero. -/
def bodyOf (resp : CurlppResponse) : String :=
  String.ofList ((resp.response.toList.drop resp.headerSize).takeWhile (· ≠ Char.ofNat 0))

/-- `process_curlpp_response_t`; `none` is the exception of `substr`. -/
def processCurlppResponse (resp : CurlppResponse) : Option Json :=
  if resp.status ≠ 200 then some .null
  else if resp.response.length < resp.headerSize then none
  else some ((env.parse (bodyOf resp)).getD .null)

/-- The object in an answer, as `handle_post_login_creds` wants it of both requests. -/
def objectOf (request : String) (resp : CurlppResponse) : Except CredsStop Json :=
  match env.processCurlppResponse resp with
  | none => .error .thrown
  | some j =>
    if resp.status ≠ 200 then .error (.message (request ++ ": " ++ toString resp.status))
    else if !j.isObject then .error (.message (request ++ ": Unknown response"))
    else .ok j

/-- `handle_post_login_creds`, up to where it has the user. -/
def grantOf (sv : Services) (creds : String) : Except CredsStop Grant :=
  match env.objectOf "POST /oauth2/token" (sv.discordPostCreds creds) with
  | .error e => .error e
  | .ok udata =>
    let tokenType := stringOrEmpty (udata.get "token_type")
    let accessToken := stringOrEmpty (udata.get "access_token")
    if tokenType.isEmpty || accessToken.isEmpty then
      .error (.message "POST /oauth2/token: Unknown response")
    else
      match env.objectOf "GET /oauth2/@me" (sv.discordGetMe tokenType accessToken) with
      | .error e => .error e
      | .ok ume =>
        let user := ume.get "user"
        -- `ume["user"]["id"]` throws for what is no object
        if !(user.isObject || user.isNull) then .error .thrown
        else
          let uid := stringOrEmpty (user.get "id")
          if uid.isEmpty then .error (.message "GET /oauth2/@me: Unknown response")
          else .ok ⟨uid, udata, user⟩

/-! ## The answers of the server -/

/-- `udata.value ("expires_in", 0)`, an `int`; 0 when it throws. -/
def expiresIn (udata : Json) : Int :=
  match udata.find "expires_in" with
  | some (.unsigned n) => (n : Int).bmod (2 ^ 32)
  | some (.integer n) => n.bmod (2 ^ 32)
  | some (.float q) => q.num.tdiv q.den
  | some (.bool b) => if b then 1 else 0
  | _ => 0

/-- `response::payload`. -/
def payload (data : Json) : Json := .object [("success", .bool true), ("data", data)]

/-- `response::error` with `ERROR_CODE_NOTHING`. -/
def error (message : String) : Json :=
  .object [("success", .bool false),
    ("data", .object [("code", .unsigned 0), ("message", .string message)])]

def createJwtToken (userId : String) : String :=
  if env.jwtSecret.isEmpty then "" else env.sign userId env.jwtSecret

/-- The header that makes a client send the token from then on. -/
def cookieOf (g : Grant) : String × String :=
  let exp := max (expiresIn g.udata) 0
  let maxAge := if exp ≠ 0 then "; Max-Age=" ++ toString exp else ""
  ("Set-Cookie", "token=" ++ env.createJwtToken g.uid ++ maxAge ++ "; HttpOnly")

def failed (headers : HeaderV) (message : String) : Answer :=
  ⟨"500 Internal Server Error", headers, env.dump (error message)⟩

/-- What `handle_post_login_creds` answers to a user it has found. -/
def answerTo (headers : HeaderV) (redirect : String) (g : Grant) : Answer :=
  if (env.createJwtToken g.uid).isEmpty then env.failed headers "Failed generating token"
  else
    ⟨"200 OK", headers ++ [env.cookieOf g],
      env.dump (payload (.object [("redirect", .string redirect), ("user", g.user)]))⟩

/-- `handle_post_login_creds`: what it stores, and its answer. An exception leaves the answer as it
is so far where the threads of DPP catch it, and is `std::terminate` where they do not. -/
def handlePostLoginCreds (sv : Services) (headers : HeaderV) (redirect creds : String)
    (caught : Bool) : Option (Option (String × Json) × Answer) :=
  match env.grantOf sv creds with
  | .error .thrown => if caught then some (none, ⟨"200 OK", headers, ""⟩) else none
  | .error (.message text) => some (none, env.failed headers text)
  | .ok g => some (some (g.uid, g.udata.erase "guild"), env.answerTo headers redirect g)

/-! ## The body of a request -/

/-- What `handle_post_login_body` asks Discord with. -/
def credsOf (code redirectUri : String) : String :=
  "code=" ++ code ++ "&client_id=" ++ toString env.shaId ++ "&client_secret=" ++ env.shaSecret ++
    "&grant_type=" ++ "authorization_code" ++ "&redirect_uri=" ++ redirectUri

/-- The object in a body. -/
def jsonBody (body : String) : Option Json :=
  if body.isEmpty then none else (env.parse body).filter (·.isObject)

/-- What `handle_post_login_body` answers, and otherwise the `creds` of the task, once it has the
redirect of the state. -/
def checkBody (headers : HeaderV) (j : Json) : Except Answer String :=
  let code := stringOrEmpty (j.get "code")
  let redirectUri := stringOrEmpty (j.get "redirect_uri")
  if code.isEmpty then .error ⟨"400 Bad Request", headers, "code"⟩
  else if redirectUri.isEmpty then .error ⟨"400 Bad Request", headers, "redirect_uri"⟩
  else if env.shaSecret.isEmpty then .error ⟨"500 Internal Server Error", headers, "config"⟩
  else .ok (env.credsOf code redirectUri)

end LoginEnv

/-! ## The steps -/

structure LoginTask where
  res : Nat
  headers : HeaderV
  redirect : String
  creds : String

structure LoginState where
  oauthStates : List (OAuthState × String) := []
  /-- The tasks that have not run. -/
  tasks : List LoginTask := []
  /-- The rows of `auths`. -/
  auths : Table Nat Json := []
  /-- What `service_cache` has of `set_cached_user_auth`, by the user. -/
  cachedAuths : Table String Json := []
  replies : List (Nat × Answer) := []

inductive LoginAction where
  /-- `get_oauth_handler`, whose `generate_oauth_state` draws `drawn`. -/
  | getOauth (res : Nat) (req : APIRequest) (drawn : OAuthState)
  /-- The timer of a state calls its `remove_fn`. -/
  | expire (state : OAuthState)
  /-- `post_login`, and its body when it is complete. -/
  | postLogin (res : Nat) (req : APIRequest) (body : String)
  /-- The task `i` runs; an exception of it may be `caught`. -/
  | runTask (i : Nat) (sv : Services) (dbOk caught : Bool)
  | postLogout (res : Nat) (req : APIRequest) (dbOk : Bool)
  /-- `check_timers` of `service_cache` removes the entry of a user. -/
  | invalidate (userId : String)

namespace LoginState

def reply (s : LoginState) (res : Nat) (a : Answer) : LoginState :=
  { s with replies := s.replies ++ [(res, a)] }

variable (env : LoginEnv)

/-- What a handler does when `cors` lets the request in. -/
def withCors (s : LoginState) (res : Nat) (req : APIRequest)
    (handler : HeaderV → Option LoginState) : Option LoginState :=
  match cors env.corsEnabledOrigins req [] with
  | (_, some a) => some (s.reply res a)
  | (headers, none) => handler headers

/-- `generate_oauth_state` draws until `should_break_oauth_states` holds. -/
def generateOauthState (s : LoginState) (redirect : String) (drawn : OAuthState) :
    Option LoginState :=
  if drawable drawn && shouldBreakOauthStates drawn s.oauthStates then
    some { s with oauthStates := (drawn, redirect) :: s.oauthStates }
  else none

def getOauthHandler (s : LoginState) (res : Nat) (req : APIRequest) (drawn : OAuthState)
    (headers : HeaderV) : Option LoginState :=
  let headers := headers ++ [("Content-Type", "application/json")]
  if env.oauthLink.isEmpty then
    some (s.reply res ⟨"500 Internal Server Error", headers,
      env.dump (LoginEnv.error "No OAuth configured")⟩)
  else
    (s.generateOauthState (req.getHeader "redirect-param") drawn).map (·.reply res
      ⟨"200 OK", headers,
        env.dump (LoginEnv.payload (.string (env.oauthLink ++ "&state=" ++ String.ofList drawn)))⟩)

def handlePostLoginBody (s : LoginState) (res : Nat) (body : String) (headers : HeaderV) :
    LoginState :=
  match env.jsonBody body with
  | none => s.reply res ⟨"400 Bad Request", headers, "body"⟩
  | some j =>
    let state := stringOrEmpty (j.get "state")
    if state.isEmpty then s.reply res ⟨"400 Bad Request", headers, "state"⟩
    else
      let (status, redirect, oauthStates) := removeOauthState state.toList s.oauthStates
      let s := { s with oauthStates }
      if status ≠ 0 then s.reply res ⟨"403 Forbidden", headers, ""⟩
      else
        match env.checkBody headers j with
        | .error a => s.reply res a
        | .ok creds => { s with tasks := s.tasks ++ [⟨res, headers, redirect.getD "", creds⟩] }

/-- `update_user_auth`. -/
def updateUserAuth (s : LoginState) (dbOk : Bool) (userId : String) (data : Json) : LoginState :=
  if env.toSnowflake userId = 0 || data.size = 0 || !dbOk then s
  else { s with auths := s.auths.upsert (env.toSnowflake userId) data }

/-- `delete_user_auth`. -/
def deleteUserAuth (s : LoginState) (dbOk : Bool) (userId : String) : LoginState :=
  if env.toSnowflake userId = 0 || !dbOk then s
  else { s with auths := s.auths.delete (env.toSnowflake userId) }

def setCachedUserAuth (s : LoginState) (userId : String) (data : Json) : LoginState :=
  { s with cachedAuths := s.cachedAuths.upsert userId data }

def removeCachedUserAuth (s : LoginState) (userId : String) : LoginState :=
  { s with cachedAuths := s.cachedAuths.delete userId }

def runTask (s : LoginState) (t : LoginTask) (sv : Services) (dbOk caught : Bool) :
    Option LoginState :=
  (env.handlePostLoginCreds sv (setContentTypeJson t.headers) t.redirect t.creds caught).map
    fun (stored, a) =>
      (match stored with
        | none => s
        | some (uid, udata) =>
          (s.updateUserAuth env dbOk uid udata).setCachedUserAuth uid udata).reply t.res a

def postLogout (s : LoginState) (res : Nat) (req : APIRequest) (dbOk : Bool)
    (headers : HeaderV) : LoginState :=
  let v := validateToken env.verifyJwtToken headers req
  let s := match v.answer with
    | none => s
    | some a => s.reply res a
  if v.userId.isEmpty then s
  else
    ((s.deleteUserAuth env dbOk v.userId).removeCachedUserAuth v.userId).reply res
      ⟨"200 OK", headers ++ [("Set-Cookie", "token=; Max-Age=0; HttpOnly")], ""⟩

end LoginState

variable (env : LoginEnv)

def loginStep (s : LoginState) : LoginAction → Option LoginState
  | .getOauth res req drawn => s.withCors env res req (s.getOauthHandler env res req drawn)
  | .expire state =>
    some { s with oauthStates := (removeOauthState state s.oauthStates).2.2 }
  | .postLogin res req body =>
    s.withCors env res req fun headers => some (s.handlePostLoginBody env res body headers)
  | .runTask i sv dbOk caught =>
    match s.tasks[i]? with
    | none => none
    | some t => { s with tasks := s.tasks.eraseIdx i }.runTask env t sv dbOk caught
  | .postLogout res req dbOk =>
    s.withCors env res req fun headers => some (s.postLogout env res req dbOk headers)
  | .invalidate userId => some (s.removeCachedUserAuth userId)

/-- **What a thread of the OAuth states does to the map is a step of the login**: it leaves the map,
or generates a state, or removes one. -/
theorem oauthStep_moves {s s' : OAuthSystem} {a : OAuthAction} (h : oauthStep s a = some s')
    (u : LoginState) (hu : u.oauthStates = s.oauthStates) :
    s'.oauthStates = s.oauthStates ∨
      (∃ redirect drawn u', u.generateOauthState redirect drawn = some u' ∧
        u'.oauthStates = s'.oauthStates) ∨
      ∃ state u', loginStep env u (.expire state) = some u' ∧ u'.oauthStates = s'.oauthStates := by
  cases a with
  | call t c => exact .inl (OAuthSystem.call_data h).1
  | go t now drawn =>
    have hgo : s.go t now drawn = some s' := h
    cases OAuthSystem.go_acts hgo with
    | issue hpc hnew =>
      rename_i redirect
      simp only [OAuthSystem.go, hpc] at hgo
      split at hgo
      · cases hgo
      · rename_i hd
        have hdraw : drawable drawn && shouldBreakOauthStates drawn u.oauthStates := by
          rw [hu, hnew]
          simpa using hd
        exact .inr (.inl ⟨redirect, drawn, _, if_pos hdraw, by rw [hu]⟩)
    | redeem hpc => exact .inr (.inr ⟨_, _, rfl, by rw [hu]⟩)
    | expire hpc => exact .inr (.inr ⟨_, _, rfl, by rw [hu]⟩)
    | forget | register | quiet => exact .inl rfl

end Musicat.Server
