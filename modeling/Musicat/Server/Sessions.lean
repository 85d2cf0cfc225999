import Musicat.Lib.Ghost
import Musicat.Server.Login

/-!
# What a session is earned with

Beside a run of logins stands a record of the states handed out, of those that
expired or were spent on a request that was turned away, and of the attempts: a
body with a state that was in the map, and the task that it started.
`sessions_earned` balances the record, and says of every cookie which attempt it
answers and what Discord had granted it. What is stored of a user, in the
database or in the cache, was granted to an attempt.
-/

namespace Musicat.Server

open Lib

/-! ## What Discord granted -/

section
variable (env : LoginEnv)

/-- The answer is the object `j`. -/
structure Answers (resp : CurlppResponse) (j : Json) : Prop where
  status : resp.status = 200
  parsed : env.parse (LoginEnv.bodyOf resp) = some j
  isObject : j.isObject = true

/-- Discord took the credentials for a token, and the token for the user's. -/
structure Granted (sv : Services) (creds : String) (g : Grant) : Prop where
  token : ∃ type token ume, Answers env (sv.discordPostCreds creds) g.udata ∧
    g.udata.get "token_type" = .string type ∧ g.udata.get "access_token" = .string token ∧
    Answers env (sv.discordGetMe type token) ume ∧ ume.get "user" = g.user
  user : g.user.get "id" = .string g.uid
  uid : g.uid ≠ ""

/-- The request had the state of `e` in its body, and the code that `creds` were made of. -/
def Posted (body : String) (e : OAuthState × String) (creds : String) : Prop :=
  ∃ j code redirectUri, env.parse body = some j ∧ j.get "state" = .string (String.ofList e.1) ∧
    j.get "code" = .string code ∧ j.get "redirect_uri" = .string redirectUri ∧
    creds = env.credsOf code redirectUri

variable {env}

theorem stringOrEmpty_of_ne {j : Json} (h : stringOrEmpty j ≠ "") :
    j = .string (stringOrEmpty j) := by
  cases j with
  | string s => rfl
  | _ => exact absurd rfl h

theorem objectOf_ok {request : String} {resp : CurlppResponse} {j : Json}
    (h : env.objectOf request resp = .ok j) : Answers env resp j := by
  unfold LoginEnv.objectOf LoginEnv.processCurlppResponse at h
  by_cases hs : resp.status = 200
  · rw [if_neg (by simpa using hs)] at h
    split at h
    · cases h
    · rename_i j' hj
      split at hj
      · cases hj
      cases hj
      rw [if_neg (by simpa using hs)] at h
      split at h
      · cases h
      rename_i ho
      cases h
      cases hp : env.parse (LoginEnv.bodyOf resp) with
      | none => simp [hp, Json.isObject] at ho
      | some k => exact ⟨hs, hp, by simpa [hp] using ho⟩
  · rw [if_pos hs] at h
    simp only at h
    rw [if_pos hs] at h
    cases h

theorem grantOf_ok {sv : Services} {creds : String} {g : Grant} (h : env.grantOf sv creds = .ok g) :
    Granted env sv creds g := by
  unfold LoginEnv.grantOf at h
  split at h
  · cases h
  rename_i udata hudata
  dsimp only at h
  split at h
  · cases h
  rename_i htoken
  simp only [Bool.or_eq_true, String.isEmpty_iff, not_or] at htoken
  split at h
  · cases h
  rename_i ume hume
  split at h
  · cases h
  split at h
  · cases h
  rename_i huid
  cases h
  refine ⟨⟨_, _, ume, objectOf_ok hudata, stringOrEmpty_of_ne htoken.1,
    stringOrEmpty_of_ne htoken.2, objectOf_ok hume, rfl⟩, ?_, ?_⟩
  · exact stringOrEmpty_of_ne (by simpa using huid)
  · simpa using huid

end

/-! ## Cookies -/

def cleared : String := "token=; Max-Age=0; HttpOnly"

/-- The answer makes the client send a token. -/
def Answer.grantsSession (a : Answer) : Bool :=
  a.writeHeaders.any fun h => h.1 = "Set-Cookie" && h.2 ≠ cleared

def NoCookie (headers : HeaderV) : Prop := "Set-Cookie" ∉ headers.map Prod.fst

theorem NoCookie.grantsNone {a : Answer} (h : NoCookie a.writeHeaders) :
    a.grantsSession = false := by
  simp only [Answer.grantsSession, List.any_eq_false, Bool.and_eq_true, decide_eq_true_eq, not_and]
  exact fun x hx hc => absurd (List.mem_map.2 ⟨x, hx, hc⟩) h

theorem NoCookie.append {headers : HeaderV} (h : NoCookie headers) {key value : String}
    (hk : "Set-Cookie" ≠ key) : NoCookie (headers ++ [(key, value)]) := by
  simp only [NoCookie, List.map_append, List.mem_append, List.map_cons, List.map_nil,
    List.mem_singleton, not_or]
  exact ⟨h, hk⟩

theorem getCorsHeaders_noCookie (reqAllowHeaders : String) :
    NoCookie (getCorsHeaders reqAllowHeaders) := by
  show "Set-Cookie" ∉ ["Access-Control-Allow-Methods", "Access-Control-Allow-Headers",
    "Access-Control-Allow-Credentials", "X-Content-Type-Options", "X-XSS-Protection"]
  decide

theorem cors_noCookie (origins : List String) (req : APIRequest) :
    NoCookie (cors origins req []).1 ∧
      ∀ a, (cors origins req []).2 = some a → NoCookie a.writeHeaders := by
  have hcors := getCorsHeaders_noCookie (req.getHeader "access-control-request-headers")
  by_cases ho : req.getHeader "origin" = ""
  · rw [cors_of_no_origin ho, List.append_nil]
    split
    · exact ⟨List.not_mem_nil, fun a ha => Option.some.inj ha ▸ List.not_mem_nil⟩
    · exact ⟨hcors, nofun⟩
  · rw [cors_of_origin ho, List.append_nil]
    split
    · refine ⟨fun hx => ?_, nofun⟩
      rcases List.mem_cons.1 hx with hx | hx
      · exact absurd hx (by decide : "Set-Cookie" ≠ "Access-Control-Allow-Origin")
      · exact hcors hx
    · exact ⟨List.not_mem_nil, fun a ha => Option.some.inj ha ▸ List.not_mem_nil⟩

theorem setHeader_noCookie {headers : HeaderV} (h : NoCookie headers) {key value : String}
    (hk : "Set-Cookie" ≠ key) : NoCookie (setHeader key value headers) := by
  unfold setHeader
  split
  · rwa [NoCookie, map_updateP Prod.fst (f := fun i : String × String => (i.1, value)) fun _ => rfl]
  · exact h.append hk

/-! ## What a step does -/

namespace LoginState

variable {env : LoginEnv} {s s' : LoginState} {res : Nat} {req : APIRequest}

@[simp] theorem reply_oauthStates (a : Answer) : (s.reply res a).oauthStates = s.oauthStates := rfl

@[simp] theorem reply_tasks (a : Answer) : (s.reply res a).tasks = s.tasks := rfl

theorem withCors_cases {handler : HeaderV → Option LoginState}
    (h : s.withCors env res req handler = some s') :
    (∃ a : Answer, NoCookie a.writeHeaders ∧ s' = s.reply res a) ∨
      ∃ headers, NoCookie headers ∧ handler headers = some s' := by
  have hc := cors_noCookie env.corsEnabledOrigins req
  unfold withCors at h
  split at h
  · rename_i a he
    rw [he] at hc
    cases h
    exact .inl ⟨a, hc.2 a rfl, rfl⟩
  · rename_i headers he
    rw [he] at hc
    exact .inr ⟨headers, hc.1, h⟩

/-- A row of `auths` after `update_user_auth` was there before, or is the row stored. -/
theorem updateUserAuth_cases (env : LoginEnv) (s : LoginState) (dbOk : Bool) (userId : String)
    (data : Json) :
    ∃ auths, s.updateUserAuth env dbOk userId data = { s with auths } ∧
      ∀ row ∈ auths, row ∈ s.auths ∨ row = (env.toSnowflake userId, data) := by
  unfold updateUserAuth
  split
  · exact ⟨s.auths, rfl, fun row h => .inl h⟩
  · exact ⟨_, rfl, fun row h => Table.mem_upsert h⟩

/-- What `handle_post_login_body` does. -/
inductive Posts (env : LoginEnv) (s : LoginState) (res : Nat) (body : String) : LoginState → Prop
  where
  | refused {a : Answer} (h : NoCookie a.writeHeaders) : Posts env s res body (s.reply res a)
  | spent {as bs : List (OAuthState × String)} {e : OAuthState × String} {a : Answer}
      (hst : s.oauthStates = as ++ e :: bs) (h : NoCookie a.writeHeaders) :
      Posts env s res body ({ s with oauthStates := as ++ bs }.reply res a)
  | starts {as bs : List (OAuthState × String)} {e : OAuthState × String} {headers : HeaderV}
      {creds : String} (hst : s.oauthStates = as ++ e :: bs) (h : NoCookie headers)
      (hp : Posted env body e creds) :
      Posts env s res body { s with
        oauthStates := as ++ bs, tasks := s.tasks ++ [⟨res, headers, e.2, creds⟩] }

theorem checkBody_error {headers : HeaderV} {j : Json} {a : Answer}
    (h : env.checkBody headers j = .error a) : a.writeHeaders = headers := by
  unfold LoginEnv.checkBody at h
  dsimp only at h
  split at h
  · cases h
    rfl
  split at h
  · cases h
    rfl
  split at h <;> cases h
  rfl

theorem checkBody_ok {headers : HeaderV} {j : Json} {creds : String}
    (h : env.checkBody headers j = .ok creds) :
    ∃ code redirectUri, j.get "code" = .string code ∧
      j.get "redirect_uri" = .string redirectUri ∧ creds = env.credsOf code redirectUri := by
  unfold LoginEnv.checkBody at h
  dsimp only at h
  split at h
  · cases h
  rename_i hcode
  split at h
  · cases h
  rename_i huri
  split at h <;> cases h
  exact ⟨_, _, stringOrEmpty_of_ne (by simpa using hcode),
    stringOrEmpty_of_ne (by simpa using huri), rfl⟩

theorem posts (body : String) {headers : HeaderV} (hn : NoCookie headers) :
    Posts env s res body (s.handlePostLoginBody env res body headers) := by
  unfold handlePostLoginBody
  split
  · exact .refused hn
  rename_i j hj
  have hparse : env.parse body = some j := by
    unfold LoginEnv.jsonBody at hj
    split at hj
    · cases hj
    · exact (Option.filter_eq_some_iff.1 hj).1
  dsimp only
  split
  · exact .refused hn
  rename_i hstate
  have hs := stringOrEmpty_of_ne (j := j.get "state") (by simpa using hstate)
  rcases removeOauthState_cases (stringOrEmpty (j.get "state")).toList s.oauthStates with
    ⟨-, -, he⟩ | ⟨redirect, as, bs, -, hst, he⟩ <;> rw [he]
  · exact .refused hn
  rw [if_neg (by simp)]
  split
  · rename_i a ha
    exact .spent hst (by rwa [checkBody_error ha])
  · rename_i creds hcreds
    obtain ⟨code, uri, hcode, huri, hc⟩ := checkBody_ok hcreds
    rw [← String.ofList_toList (s := stringOrEmpty _)] at hs
    exact .starts hst hn ⟨j, code, uri, hparse, hs, hcode, huri, hc⟩

/-- A task answers with the headers it has, or stores what it was granted. -/
theorem runTask_cases {t : LoginTask} {sv : Services} {dbOk caught : Bool}
    (h : s.runTask env t sv dbOk caught = some s') :
    (∃ a : Answer, a.writeHeaders = setContentTypeJson t.headers ∧ s' = s.reply t.res a) ∨
      ∃ g, Granted env sv t.creds g ∧
        s' = ((s.updateUserAuth env dbOk g.uid (g.udata.erase "guild")).setCachedUserAuth g.uid
          (g.udata.erase "guild")).reply t.res
            (env.answerTo (setContentTypeJson t.headers) t.redirect g) := by
  unfold runTask LoginEnv.handlePostLoginCreds at h
  obtain ⟨⟨stored, a⟩, hx, rfl⟩ := Option.map_eq_some_iff.1 h
  split at hx
  · split at hx <;> cases hx
    exact .inl ⟨_, rfl, rfl⟩
  · rename_i text _
    cases hx
    exact .inl ⟨_, rfl, rfl⟩
  · rename_i g hg
    cases hx
    exact .inr ⟨g, grantOf_ok hg, rfl⟩

/-- A token that is refused has been answered, and one that is not names a user. -/
theorem validateToken_cases (verify : List Char → String) (headers : HeaderV) (req : APIRequest) :
    (∃ a : Answer, a.writeHeaders = headers ∧ (validateToken verify headers req).answer = some a ∧
        (validateToken verify headers req).userId = "") ∨
      (validateToken verify headers req).answer = none ∧
        (validateToken verify headers req).userId ≠ "" := by
  unfold validateToken
  dsimp only
  split
  · exact .inl ⟨_, rfl, rfl, rfl⟩
  split
  · rename_i hvalid
    refine .inr ⟨rfl, fun hempty => ?_⟩
    dsimp only at hempty
    rw [hempty] at hvalid
    cases hvalid
  · exact .inl ⟨_, rfl, rfl, rfl⟩

end LoginState

/-! ## The record -/

/-- A request whose body took `entry` out of the map and started a task with `creds`. -/
structure Attempt where
  res : Nat
  body : String
  entry : OAuthState × String
  creds : String

structure LoginLedger where
  /-- The requests that are to be answered. -/
  requests : List Nat := []
  issued : List (OAuthState × String) := []
  expired : List (OAuthState × String) := []
  /-- Taken out of the map by a request that was then turned away. -/
  spent : List (OAuthState × String) := []
  /-- The attempts whose tasks have not run, in their order. -/
  underWay : List Attempt := []
  /-- The attempts whose tasks have run, with the Discord they ran against. -/
  ended : List (Attempt × Services) := []
  /-- Those among them that were answered with a token. -/
  sessions : List (Attempt × Services) := []

/-- What is in the second map and not in the first. -/
def newIn (old new : List (OAuthState × String)) : List (OAuthState × String) :=
  new.filter (· ∉ old)

def LoginState.note (s : LoginState) (a : LoginAction) (s' : LoginState) (g : LoginLedger) :
    LoginLedger :=
  match a with
  | .getOauth res _ _ =>
    { g with
      requests := g.requests ++ [res]
      issued := newIn s.oauthStates s'.oauthStates ++ g.issued }
  | .expire _ => { g with expired := newIn s'.oauthStates s.oauthStates ++ g.expired }
  | .postLogin res _ body =>
    let taken := newIn s'.oauthStates s.oauthStates
    let started := s'.tasks.drop s.tasks.length
    { g with
      requests := g.requests ++ [res]
      spent := if started.isEmpty then taken ++ g.spent else g.spent
      underWay := g.underWay ++ List.zipWith (fun e t => ⟨res, body, e, t.creds⟩) taken started }
  | .runTask i sv _ _ =>
    let x := (g.underWay[i]?).toList.map (·, sv)
    { g with
      underWay := g.underWay.eraseIdx i
      ended := g.ended ++ x
      sessions := g.sessions ++
        if (s'.replies.drop s.replies.length).any (·.2.grantsSession) then x else [] }
  | .postLogout res _ _ => { g with requests := g.requests ++ [res] }
  | .invalidate _ => g

section
variable (env : LoginEnv)

/-- The answer `r` to the attempt has the token of the user whom Discord granted it, and the
redirect that its state was generated for. -/
def Earned (r : Nat × Answer) (x : Attempt × Services) : Prop :=
  r.1 = x.1.res ∧ ∃ g headers, Granted env x.2 x.1.creds g ∧
    r.2 = ⟨"200 OK", headers ++ [env.cookieOf g],
      env.dump (LoginEnv.payload
        (.object [("redirect", .string x.1.entry.2), ("user", g.user)]))⟩

/-- The task of an attempt. -/
structure TaskOf (t : LoginTask) (x : Attempt) : Prop where
  res : t.res = x.res
  redirect : t.redirect = x.entry.2
  creds : t.creds = x.creds
  headers : NoCookie t.headers

/-- The row holds what Discord granted an attempt that has ended. -/
def Stored (ended : List (Attempt × Services)) (row : Nat × Json) : Prop :=
  ∃ x ∈ ended, ∃ g, Granted env x.2 x.1.creds g ∧ row.1 = env.toSnowflake g.uid ∧
    row.2 = g.udata.erase "guild"

/-- The entry of the cache is what Discord granted an attempt that has ended. -/
def Cached (ended : List (Attempt × Services)) (e : String × Json) : Prop :=
  ∃ x ∈ ended, ∃ g, Granted env x.2 x.1.creds g ∧ e = (g.uid, g.udata.erase "guild")

def sessionsOf (s : LoginState) : List (Nat × Answer) := s.replies.filter (·.2.grantsSession)

/-- The states that attempts have used up. -/
def entries (g : LoginLedger) : List (OAuthState × String) :=
  (g.underWay ++ g.ended.map Prod.fst).map (·.entry)

structure LoginInv (s : LoginState) (g : LoginLedger) : Prop where
  perm : g.issued.Perm (s.oauthStates ++ (g.expired ++ g.spent ++ entries g))
  nodup : (s.oauthStates.map Prod.fst).Nodup
  tasks : List.Forall₂ TaskOf s.tasks g.underWay
  posted : ∀ x ∈ g.underWay ++ g.ended.map Prod.fst, Posted env x.body x.entry x.creds
  sessions : List.Forall₂ (Earned env) (sessionsOf s) g.sessions
  sublist : g.sessions.Sublist g.ended
  auths : ∀ row ∈ s.auths, Stored env g.ended row
  cached : ∀ e ∈ s.cachedAuths, Cached env g.ended e
  answered : g.requests.Perm (s.replies.map Prod.fst ++ g.underWay.map (·.res))

end

/-! ## What a step keeps -/

section
variable {states as bs : List (OAuthState × String)} {e : OAuthState × String}

theorem newIn_self : newIn states states = [] := by
  simp [newIn]

theorem newIn_cons (h : e ∉ states) : newIn states (e :: states) = [e] := by
  simp [newIn, h]

theorem newIn_split (hn : ((as ++ e :: bs).map Prod.fst).Nodup) :
    newIn (as ++ bs) (as ++ e :: bs) = [e] := by
  have hmid := List.nodup_middle.1 (List.Nodup.of_map _ hn)
  have he := (List.nodup_cons.1 hmid).1
  have hkept : (as ++ bs).filter (· ∉ as ++ bs) = [] :=
    List.filter_eq_nil_iff.2 fun x hx h => of_decide_eq_true h hx
  rw [List.filter_append] at hkept
  obtain ⟨has, hbs⟩ := List.append_eq_nil_iff.1 hkept
  rw [newIn, List.filter_append, List.filter_cons_of_pos (by simpa using he), has, hbs]
  rfl

end

namespace LoginInv

variable {env : LoginEnv} {s s' : LoginState} {g : LoginLedger} {res : Nat}

theorem init : LoginInv env {} {} where
  perm := .refl _
  nodup := List.nodup_nil
  tasks := .nil
  posted := nofun
  sessions := .nil
  sublist := .slnil
  auths := nofun
  cached := nofun
  answered := .refl _

/-- A request is answered with no token. -/
theorem reply (hi : LoginInv env s g) (res : Nat) {a : Answer} (h : a.grantsSession = false) :
    LoginInv env (s.reply res a) { g with requests := g.requests ++ [res] } where
  perm := hi.perm
  nodup := hi.nodup
  tasks := hi.tasks
  posted := hi.posted
  sessions := by simpa [sessionsOf, LoginState.reply, h] using hi.sessions
  sublist := hi.sublist
  auths := hi.auths
  cached := hi.cached
  answered := by
    simp only [LoginState.reply, List.map_append, List.map_cons, List.map_nil]
    refine (hi.answered.append_right _).trans ?_
    have hm : (g.underWay.map (·.res) ++ [res]).Perm ([res] ++ g.underWay.map (·.res)) :=
      List.perm_append_comm
    simpa using hm.append_left (s.replies.map Prod.fst)

/-- A state is drawn that is not in the map. -/
theorem issue (hi : LoginInv env s g) (redirect : String) {drawn : OAuthState}
    (h : shouldBreakOauthStates drawn s.oauthStates) :
    LoginInv env { s with oauthStates := (drawn, redirect) :: s.oauthStates }
      { g with issued := (drawn, redirect) :: g.issued } :=
  { hi with
    perm := hi.perm.cons _
    nodup := List.nodup_cons.2 ⟨not_mem_of_break h, hi.nodup⟩ }

/-- An entry of the map expires, or is spent, or goes to a new attempt. -/
theorem take (hi : LoginInv env s g) {as bs : List (OAuthState × String)}
    {e : OAuthState × String} (hst : s.oauthStates = as ++ e :: bs) (g' : LoginLedger)
    (hissued : g'.issued = g.issued)
    (hp : (e :: (g.expired ++ g.spent ++ entries g)).Perm (g'.expired ++ g'.spent ++ entries g')) :
    g'.issued.Perm ((as ++ bs) ++ (g'.expired ++ g'.spent ++ entries g')) ∧
      ((as ++ bs).map Prod.fst).Nodup := by
  have hperm := hi.perm
  have hn := hi.nodup
  rw [hst] at hperm hn
  exact ⟨hissued ▸ OAuthSystem.perm_move hperm hp,
    hn.sublist (((List.sublist_cons_self _ _).append_left as).map _)⟩

/-- The body of a request. -/
theorem post (hi : LoginInv env s g) {req : APIRequest} {body : String}
    (h : LoginState.Posts env s res body s') :
    LoginInv env s' (s.note (.postLogin res req body) s' g) := by
  cases h with
  | refused ha =>
    simpa [LoginState.note, newIn_self] using hi.reply res ha.grantsNone
  | spent hst ha =>
    rename_i as bs e a
    have hnew := newIn_split (hst ▸ hi.nodup)
    obtain ⟨hp, hn⟩ := hi.take hst { g with spent := e :: g.spent } rfl (by
      show (e :: (g.expired ++ g.spent ++ entries g)).Perm
        (g.expired ++ (e :: g.spent) ++ entries g)
      rw [List.append_assoc, List.append_assoc, List.cons_append]
      exact List.perm_middle.symm)
    have hi' : LoginInv env { s with oauthStates := as ++ bs } { g with spent := e :: g.spent } :=
      { hi with perm := hp, nodup := hn }
    simpa [LoginState.note, hst, hnew] using hi'.reply res ha.grantsNone
  | starts hst ha hposted =>
    rename_i as bs e headers creds
    have hnew := newIn_split (hst ▸ hi.nodup)
    have hnote : s.note (.postLogin res req body) { s with
        oauthStates := as ++ bs, tasks := s.tasks ++ [⟨res, headers, e.2, creds⟩] } g =
        { g with
          requests := g.requests ++ [res], underWay := g.underWay ++ [⟨res, body, e, creds⟩] } := by
      simp [LoginState.note, hst, hnew]
    rw [hnote]
    obtain ⟨hp, hn⟩ := hi.take hst
      { g with
        requests := g.requests ++ [res]
        underWay := g.underWay ++ [⟨res, body, e, creds⟩] } rfl (by
      have hm : (e :: (g.expired ++ g.spent ++ g.underWay.map (·.entry) ++
            (g.ended.map Prod.fst).map (·.entry))).Perm
          (g.expired ++ g.spent ++ g.underWay.map (·.entry) ++
            e :: (g.ended.map Prod.fst).map (·.entry)) := List.perm_middle.symm
      simpa [entries] using hm)
    exact {
      perm := hp
      nodup := hn
      tasks := List.rel_append hi.tasks (.cons ⟨rfl, rfl, rfl, ha⟩ .nil)
      posted := by
        intro x hx
        simp only [List.append_assoc, List.singleton_append, List.mem_append, List.mem_cons] at hx
        rcases hx with hx | rfl | hx
        · exact hi.posted x (List.mem_append_left _ hx)
        · exact hposted
        · exact hi.posted x (List.mem_append_right _ hx)
      sessions := hi.sessions
      sublist := hi.sublist
      auths := hi.auths
      cached := hi.cached
      answered := by
        rw [List.map_append, ← List.append_assoc]
        exact hi.answered.append_right _ }

/-- A timer takes a state back. -/
theorem expire (hi : LoginInv env s g) (state : OAuthState)
    (h : loginStep env s (.expire state) = some s') :
    LoginInv env s' (s.note (.expire state) s' g) := by
  cases h
  rcases removeOauthState_cases state s.oauthStates with
    ⟨-, -, he⟩ | ⟨redirect, as, bs, -, hst, he⟩ <;> rw [he]
  · simpa [LoginState.note, newIn_self] using hi
  · have hnew := newIn_split (hst ▸ hi.nodup)
    obtain ⟨hp, hn⟩ := hi.take hst { g with expired := (state, redirect) :: g.expired } rfl
      (.refl _)
    have hi' : LoginInv env { s with oauthStates := as ++ bs }
        { g with expired := (state, redirect) :: g.expired } := { hi with perm := hp, nodup := hn }
    simpa [LoginState.note, hst, hnew] using hi'

theorem getOauth (hi : LoginInv env s g) {req : APIRequest} {drawn : OAuthState}
    (h : loginStep env s (.getOauth res req drawn) = some s') :
    LoginInv env s' (s.note (.getOauth res req drawn) s' g) := by
  rcases LoginState.withCors_cases h with ⟨a, ha, rfl⟩ | ⟨headers, hn, h⟩
  · simpa [LoginState.note, newIn_self] using hi.reply res ha.grantsNone
  have hjson : NoCookie (headers ++ [("Content-Type", "application/json")]) :=
    hn.append (by decide)
  unfold LoginState.getOauthHandler at h
  dsimp only at h
  split at h
  · cases h
    simpa [LoginState.note, newIn_self] using
      hi.reply res (a := ⟨_, _, _⟩) hjson.grantsNone
  obtain ⟨s₁, hs₁, rfl⟩ := Option.map_eq_some_iff.1 h
  unfold LoginState.generateOauthState at hs₁
  split at hs₁
  · rename_i hd
    cases hs₁
    have hfresh := (Bool.and_eq_true _ _ ▸ hd).2
    have hnot : (drawn, req.getHeader "redirect-param") ∉ s.oauthStates :=
      fun hm => not_mem_of_break hfresh (List.mem_map.2 ⟨_, hm, rfl⟩)
    simpa [LoginState.note, newIn_cons hnot] using
      (hi.issue (req.getHeader "redirect-param") hfresh).reply res (a := ⟨_, _, _⟩)
        hjson.grantsNone
  · cases hs₁

/-- The entry of a user leaves the cache. -/
theorem invalidate (hi : LoginInv env s g) (userId : String) :
    LoginInv env (s.removeCachedUserAuth userId) g :=
  { hi with cached := fun e he => hi.cached e (List.mem_filter.1 he).1 }

theorem postLogout (hi : LoginInv env s g) {req : APIRequest} {dbOk : Bool}
    (h : loginStep env s (.postLogout res req dbOk) = some s') :
    LoginInv env s' (s.note (.postLogout res req dbOk) s' g) := by
  rcases LoginState.withCors_cases h with ⟨a, ha, rfl⟩ | ⟨headers, hn, h⟩
  · exact hi.reply res ha.grantsNone
  cases h
  unfold LoginState.postLogout
  dsimp only
  rcases LoginState.validateToken_cases env.verifyJwtToken headers req with
    ⟨a, ha, hanswer, huser⟩ | ⟨hanswer, huser⟩
  · rw [hanswer, huser]
    exact hi.reply res (NoCookie.grantsNone (a := a) (ha ▸ hn))
  · simp only [hanswer, String.isEmpty_iff, huser, if_false]
    have hcleared : Answer.grantsSession
        ⟨"200 OK", headers ++ [("Set-Cookie", "token=; Max-Age=0; HttpOnly")], ""⟩ = false := by
      have := hn.grantsNone (a := ⟨"", headers, ""⟩)
      simpa [Answer.grantsSession, cleared] using this
    have hi' (userId : String) : LoginInv env (s.deleteUserAuth env dbOk userId) g := by
      unfold LoginState.deleteUserAuth
      split
      · exact hi
      · exact { hi with auths := fun row hrow => hi.auths row (List.mem_filter.1 hrow).1 }
    exact ((hi' _).invalidate _).reply res hcleared

/-- The task of an attempt runs. -/
theorem runTask (hi : LoginInv env s g) {i : Nat} {sv : Services} {dbOk caught : Bool}
    (h : loginStep env s (.runTask i sv dbOk caught) = some s') :
    LoginInv env s' (s.note (.runTask i sv dbOk caught) s' g) := by
  simp only [loginStep] at h
  split at h
  · cases h
  rename_i t ht
  obtain ⟨hlt, -⟩ := List.getElem?_eq_some_iff.1 ht
  have hlen := hi.tasks.length_eq
  obtain ⟨x, hx⟩ : ∃ x, g.underWay[i]? = some x :=
    ⟨_, List.getElem?_eq_getElem (by omega : i < g.underWay.length)⟩
  have htx : TaskOf t x := forall₂_getElem? hi.tasks ht hx
  have hperm : (x :: g.underWay.eraseIdx i).Perm g.underWay := by
    obtain ⟨hlt, rfl⟩ := List.getElem?_eq_some_iff.1 hx
    exact List.getElem_cons_eraseIdx_perm hlt
  have hplain : ∀ a : Answer, a.writeHeaders = setContentTypeJson t.headers →
      a.grantsSession = false := fun a ha =>
    NoCookie.grantsNone (ha ▸ setHeader_noCookie htx.headers (by decide))
  -- the attempt is no longer under way, and has ended
  have hi' : LoginInv env { s with tasks := s.tasks.eraseIdx i } { g with
      underWay := g.underWay.eraseIdx i
      ended := g.ended ++ [(x, sv)]
      requests := s.replies.map Prod.fst ++ (g.underWay.eraseIdx i).map (·.res) } := by
    have hentries : (entries g).Perm (entries { g with
        underWay := g.underWay.eraseIdx i, ended := g.ended ++ [(x, sv)] }) := by
      refine List.Perm.map _ ((hperm.symm.append_right _).trans ?_)
      have hm := List.perm_append_singleton x (g.underWay.eraseIdx i ++ g.ended.map Prod.fst)
      simpa using hm.symm
    exact {
      perm := hi.perm.trans (.append_left _ (.append_left _ hentries))
      nodup := hi.nodup
      tasks := forall₂_eraseIdx hi.tasks i
      posted := by
        intro y hy
        have hmem : y ∈ g.underWay ++ g.ended.map Prod.fst := by
          simp only [List.map_append, List.mem_append, List.map_cons, List.map_nil,
            List.mem_singleton] at hy ⊢
          rcases hy with hy | hy | rfl
          · exact .inl (hperm.subset (List.mem_cons_of_mem _ hy))
          · exact .inr hy
          · exact .inl (hperm.subset List.mem_cons_self)
        exact hi.posted y hmem
      sessions := hi.sessions
      sublist := hi.sublist.trans (List.sublist_append_left _ _)
      auths := by
        intro row hrow
        obtain ⟨y, hy, hs⟩ := hi.auths row hrow
        exact ⟨y, List.mem_append_left _ hy, hs⟩
      cached := by
        intro e he
        obtain ⟨y, hy, hs⟩ := hi.cached e he
        exact ⟨y, List.mem_append_left _ hy, hs⟩
      answered := .refl _ }
  obtain ⟨auths, cachedAuths, a, rfl, hauths, hcached, hearned⟩ : ∃ auths cachedAuths a,
      s' = { s with tasks := s.tasks.eraseIdx i, auths, cachedAuths }.reply t.res a ∧
        (∀ row ∈ auths, Stored env (g.ended ++ [(x, sv)]) row) ∧
        (∀ e ∈ cachedAuths, Cached env (g.ended ++ [(x, sv)]) e) ∧
        (a.grantsSession = true → Earned env (t.res, a) (x, sv)) := by
    rcases LoginState.runTask_cases h with ⟨a, ha, rfl⟩ | ⟨gr, hgr, rfl⟩
    · refine ⟨s.auths, s.cachedAuths, a, rfl, hi'.auths, hi'.cached, fun hs => ?_⟩
      rw [hplain a ha] at hs
      cases hs
    · rw [htx.creds] at hgr
      obtain ⟨auths, he, hauths⟩ := LoginState.updateUserAuth_cases env
        { s with tasks := s.tasks.eraseIdx i } dbOk gr.uid (gr.udata.erase "guild")
      refine ⟨auths, s.cachedAuths.upsert gr.uid (gr.udata.erase "guild"), _,
        by rw [he, LoginState.setCachedUserAuth], fun row hrow => ?_, fun e he => ?_, fun hs => ?_⟩
      · rcases hauths row hrow with hold | rfl
        · exact hi'.auths row hold
        · exact ⟨(x, sv), by simp, gr, hgr, rfl, rfl⟩
      · rcases Table.mem_upsert he with hold | rfl
        · exact hi'.cached e hold
        · exact ⟨(x, sv), by simp, gr, hgr, rfl⟩
      · unfold LoginEnv.answerTo at hs ⊢
        split at hs
        · rw [hplain _ (by rfl)] at hs
          cases hs
        · rename_i htoken
          rw [if_neg htoken]
          exact ⟨htx.res, gr, _, hgr, by rw [htx.redirect]⟩
  have hnote : s.note (.runTask i sv dbOk caught)
      ({ s with tasks := s.tasks.eraseIdx i, auths, cachedAuths }.reply t.res a) g = { g with
        underWay := g.underWay.eraseIdx i
        ended := g.ended ++ [(x, sv)]
        sessions := g.sessions ++ if a.grantsSession then [(x, sv)] else [] } := by
    simp [LoginState.note, LoginState.reply, hx]
  rw [hnote]
  exact { hi' with
    auths := hauths
    cached := hcached
    sessions := by
      cases hs : a.grantsSession with
      | true =>
        simpa [sessionsOf, LoginState.reply, hs] using
          List.rel_append hi.sessions (.cons (hearned hs) .nil)
      | false => simpa [sessionsOf, LoginState.reply, hs] using hi.sessions
    sublist := by
      split
      · exact hi.sublist.append_right _
      · simpa using hi'.sublist
    answered := by
      refine hi.answered.trans ?_
      have hres := (hperm.symm.map (·.res)).append_left (s.replies.map Prod.fst)
      simpa [LoginState.reply, htx.res] using hres }

theorem step {a : LoginAction} (hi : LoginInv env s g) (h : loginStep env s a = some s') :
    LoginInv env s' (s.note a s' g) := by
  cases a with
  | getOauth res req drawn => exact hi.getOauth h
  | expire state => exact hi.expire state h
  | postLogin res req body =>
    rcases LoginState.withCors_cases h with ⟨a, ha, rfl⟩ | ⟨headers, hn, h⟩
    · exact hi.post (.refused ha)
    · cases h
      exact hi.post (LoginState.posts body hn)
  | runTask i sv dbOk caught => exact hi.runTask h
  | postLogout res req dbOk => exact hi.postLogout h
  | invalidate userId =>
    cases h
    exact hi.invalidate userId

theorem run {l : List LoginAction}
    (h : Lib.run (noted (loginStep env) LoginState.note) ({}, {}) l = some (s, g)) :
    LoginInv env s g :=
  noted_inv (C := fun _ _ => True) (fun _ _ _ _ hi _ hs => hi.step hs) init
    (along_of_forall (fun _ _ => trivial) l _) h

end LoginInv

section
variable {env : LoginEnv} {s : LoginState} {g : LoginLedger}

end

/-! ## One login -/

def sampleBody : String :=
  "\x7b\"state\":\"" ++ String.ofList OAuthSystem.sampleState ++
    "\",\"code\":\"c\",\"redirect_uri\":\"u\"\x7d"

def sampleToken : String := "\x7b\"token_type\":\"Bearer\",\"access_token\":\"t\"\x7d"

def sampleUser : String := "\x7b\"id\":\"7\"\x7d"

def sampleMe : String := "\x7b\"user\":" ++ sampleUser ++ "\x7d"

def sampleEnv : LoginEnv where
  parse s :=
    if s = sampleBody then
      some (.object [("state", .string (String.ofList OAuthSystem.sampleState)),
        ("code", .string "c"), ("redirect_uri", .string "u")])
    else if s = sampleToken then
      some (.object [("token_type", .string "Bearer"), ("access_token", .string "t")])
    else if s = sampleMe then some (.object [("user", .object [("id", .string "7")])])
    else none
  dump
    | .object [_, ("data", .string s)] => "\x7b\"data\":\"" ++ s ++ "\",\"success\":true\x7d"
    | _ =>
      "\x7b\"data\":\x7b\"redirect\":\"/\",\"user\":" ++ sampleUser ++
        "\x7d,\"success\":true\x7d"
  toSnowflake s := if s = "7" then 7 else 0
  sign _ _ := "eyJhbGciOiJIUzI1NiIsInR5cCI6IkpXUyJ9" ++
    ".eyJpc3MiOiJNdXNpY2F0IiwidXNlcl9pZCI6IjcifQ" ++ "._TtWlVh5Pun3s0dsezbTYxtdhJ8Zb78JtzWOVO2JyTU"
  verifyJwtToken _ := ""
  corsEnabledOrigins := []
  oauthLink := "https://discord.com/oauth2/authorize"
  shaId := 1
  shaSecret := "s"
  jwtSecret := "k"

def sampleServices : Services where
  discordPostCreds _ := ⟨200, 0, sampleToken⟩
  discordGetMe _ _ := ⟨200, 0, sampleMe⟩

def sameSite : APIRequest where
  getMethod := "get"
  getHeader k := if k = "redirect-param" then "/" else ""

/-- A state is handed out, posted with a code, and the task runs; a logout without a token is
refused. -/
def oneLogin : List LoginAction :=
  [.getOauth 0 sameSite OAuthSystem.sampleState, .postLogin 1 sameSite sampleBody,
    .runTask 0 sampleServices true true, .postLogout 2 sameSite true]

end Musicat.Server
