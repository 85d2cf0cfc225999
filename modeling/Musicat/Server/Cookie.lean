import Musicat.Server.Cors
import Musicat.Server.Dashboard

/-!
# The token among the cookies

`validate_token` searches the header for `token=` and for the semicolon behind
it, and gives the place of the semicolon to `substr`, which takes it for a
length. That is right for what stands at the beginning of the header; of
anything else, too much is taken by as many characters as come before it. The
search does not know where a cookie begins, either. The token is read as it
should be where the first cookie with `token=` in its text is the token's and
the first or the last of the header; the last may also be another, with nothing
behind what is found.
-/

namespace Musicat.Server

open Lib

def tokenCookieName : List Char := ['t', 'o', 'k', 'e', 'n', '=']

/-- What `validate_token` takes for the token. -/
def tokenOf (cookie : List Char) : List Char :=
  match find tokenCookieName cookie with
  | none => []
  | some i =>
    let tStart := i + tokenCookieName.length
    match findFrom [';'] cookie tStart with
    | none => cookie.drop tStart
    -- the second argument of `substr` is a length
    | some tEnd => (cookie.drop tStart).take (tEnd - tokenCookieName.length)

/-- What comes of `validate_token`. -/
structure Validated where
  userId : String := ""
  /-- The token that `verify_jwt_token` was called with. -/
  verified : Option (List Char) := none
  /-- What the `end_t` ends the request with, unless its `res` has been taken away. -/
  answer : Option Answer := none

def validateToken (verifyJwtToken : List Char → String) (corsHeaders : HeaderV)
    (req : APIRequest) : Validated :=
  let unauthorized : Answer :=
    { writeStatus := "401 Unauthorized", writeHeaders := corsHeaders }
  let token := tokenOf (req.getHeader "cookie").toList
  if token.isEmpty then { answer := some unauthorized }
  else
    let userId := verifyJwtToken token
    if validNumber userId then { userId, verified := some token }
    else { verified := some token, answer := some unauthorized }

/-! ## Headers -/

/-- A pair `name=value`. -/
structure Cookie where
  name : List Char
  value : List Char
  name_eq : '=' ∉ name
  name_semicolon : ';' ∉ name
  value_semicolon : ';' ∉ value

namespace Cookie

def text (c : Cookie) : List Char := c.name ++ '=' :: c.value

/-- The header of the cookies. -/
def header (cookies : List Cookie) : List Char := [';', ' '].intercalate (cookies.map text)

/-- It is called `token`. -/
def IsToken (c : Cookie) : Prop := c.name = ['t', 'o', 'k', 'e', 'n']

instance (c : Cookie) : Decidable c.IsToken := inferInstanceAs (Decidable (_ = _))

/-- The value of the cookie called `token`, the first if there are more; an empty one is none. -/
def token (cookies : List Cookie) : Option (List Char) :=
  ((cookies.find? (·.IsToken)).map value).filter (· ≠ [])

/-- `token=` is found in it. -/
def Catches (c : Cookie) : Prop := tokenCookieName <:+: c.text

instance (c : Cookie) : Decidable c.Catches := inferInstanceAs (Decidable (_ <:+: _))

/-- The first cookie that `token=` is found in is the token's and stands first or last, or it is
another, it stands last, and nothing comes after what is found. -/
def InTheClear (cookies : List Cookie) : Prop :=
  let before := cookies.takeWhile fun d => ¬ d.Catches
  match cookies.dropWhile fun d => ¬ d.Catches with
  | [] => True
  | c :: after =>
    (c.IsToken ∧ (before = [] ∨ after = [])) ∨
      (¬ c.IsToken ∧ after = [] ∧ Lib.after tokenCookieName c.text = some [])

variable {c : Cookie} {before after : List Cookie}

theorem text_semicolon (c : Cookie) : ';' ∉ c.text := by
  simp [text, c.name_semicolon, c.value_semicolon]

/-- The cookies before one, each with what separates it from the next. -/
def headerBefore (cookies : List Cookie) : List Char :=
  cookies.flatMap fun d => d.text ++ [';', ' ']

/-- The cookies after one, each with what separates it from the one before. -/
def headerAfter (cookies : List Cookie) : List Char :=
  cookies.flatMap fun d => ';' :: ' ' :: d.text

theorem header_cons (c : Cookie) (after : List Cookie) :
    header (c :: after) = c.text ++ headerAfter after := by
  induction after generalizing c with
  | nil => simp [header, headerAfter]
  | cons d after ih =>
    have hrest := ih d
    rw [header, List.map_cons, List.map_cons, List.intercalate_cons_cons, ← List.map_cons,
      ← header, hrest, headerAfter, headerAfter, List.flatMap_cons]
    simp

theorem header_append :
    header (before ++ c :: after) = headerBefore before ++ (c.text ++ headerAfter after) := by
  induction before with
  | nil => exact header_cons c after
  | cons d before ih =>
    have hne : (before ++ c :: after).map text ≠ [] := by simp
    rw [List.cons_append, header, List.map_cons, List.intercalate_cons_of_ne_nil hne, ← header, ih,
      headerBefore, headerBefore, List.flatMap_cons]
    simp

/-- The search goes past the cookies that `token=` is not found in. -/
theorem find_headerBefore (h : ∀ d ∈ before, ¬ d.Catches) (s : List Char) :
    find tokenCookieName (headerBefore before ++ s) =
      (find tokenCookieName s).map ((headerBefore before).length + ·) := by
  induction before with
  | nil => simp [headerBefore]
  | cons d before ih =>
    have hrest := ih fun e he => h e (List.mem_cons_of_mem _ he)
    have hsplit : headerBefore (d :: before) ++ s =
        d.text ++ ';' :: ([] ++ ' ' :: (headerBefore before ++ s)) := by
      simp [headerBefore]
    have hlength : (headerBefore (d :: before)).length =
        d.text.length + 1 + (0 + 1 + (headerBefore before).length) := by
      simp [headerBefore]
      omega
    rw [hsplit, find_skip (h d List.mem_cons_self) (by decide), find_skip (by decide) (by decide),
      hrest, Option.map_map, Option.map_map, hlength]
    congr 1
    funext i
    simp only [Function.comp_apply, List.length_nil]
    omega

/-- No cookie with `token=` in its text, no token. -/
theorem tokenOf_of_none {cookies : List Cookie} (h : ∀ d ∈ cookies, ¬ d.Catches) :
    tokenOf (header cookies) = [] := by
  have hfind : find tokenCookieName (header cookies) = none := by
    rcases List.eq_nil_or_concat' cookies with rfl | ⟨before, c, rfl⟩
    · rfl
    · rw [header_append, find_headerBefore fun d hd => h d (List.mem_append_left _ hd)]
      simp only [headerAfter, List.flatMap_nil, List.append_nil]
      rw [find_eq_none (h c (by simp)), Option.map_none]
  rw [tokenOf, hfind]

/-- What is taken for the token: what comes after `token=` in the first cookie that it is found
in, and as many more characters as come before. -/
theorem tokenOf_header {j : Nat} (hbefore : ∀ d ∈ before, ¬ d.Catches)
    (hj : find tokenCookieName c.text = some j) :
    tokenOf (header (before ++ c :: after)) = c.text.drop (j + tokenCookieName.length) ++
      (headerAfter after).take ((headerBefore before).length + j) := by
  have hle := add_length_le_of_find hj (by decide)
  have hfind : find tokenCookieName (header (before ++ c :: after)) =
      some ((headerBefore before).length + j) := by
    rw [header_append, find_headerBefore hbefore, find_append hj, Option.map_some]
  have hdrop : (header (before ++ c :: after)).drop
      ((headerBefore before).length + j + tokenCookieName.length) =
        c.text.drop (j + tokenCookieName.length) ++ headerAfter after := by
    rw [header_append, Nat.add_assoc, List.drop_length_add_append,
      List.drop_append_of_le_length hle]
  have hrest : ';' ∉ c.text.drop (j + tokenCookieName.length) := fun h =>
    c.text_semicolon (List.mem_of_mem_drop h)
  rw [tokenOf, hfind]
  dsimp only
  rw [findFrom, hdrop]
  cases after with
  | nil =>
    rw [find_singleton, if_neg (by simpa [headerAfter] using hrest)]
    simp [headerAfter]
  | cons d after =>
    have htail : headerAfter (d :: after) = ';' :: ' ' :: (d.text ++ headerAfter after) := rfl
    rw [htail, find_singleton_append hrest, Option.map_some]
    dsimp only
    rw [Nat.add_right_comm _ _ (List.length _), Nat.add_sub_cancel, Nat.add_comm _ (List.length _),
      List.take_length_add_append]

/-! ## What is in the way -/

/-- `token=` is found at the beginning of the token's cookie, and of no other. -/
theorem find_eq_zero_iff_isToken : find tokenCookieName c.text = some 0 ↔ c.IsToken := by
  rw [find_eq_zero_iff]
  constructor
  · rintro ⟨t, ht⟩
    have hequals : ['t', 'o', 'k', 'e', 'n'] ++ '=' :: t = c.name ++ '=' :: c.value := ht
    have hlength := congrArg (find ['=']) hequals
    rw [find_singleton_append (by decide), find_singleton_append c.name_eq] at hlength
    exact (List.append_inj_left hequals (Option.some.inj hlength)).symm
  · intro h
    exact ⟨c.value, by rw [text, h]; rfl⟩

theorem IsToken.catches (h : c.IsToken) : c.Catches :=
  infix_of_find (find_eq_zero_iff_isToken.2 h)

/-- The value of the token's cookie, where it is the first that `token=` is found in. -/
theorem token_append (hbefore : ∀ d ∈ before, ¬ d.Catches) :
    token (before ++ c :: after) = token (c :: after) := by
  have hnone : before.find? (·.IsToken) = none :=
    List.find?_eq_none.2 fun d hd h => hbefore d hd (of_decide_eq_true h).catches
  rw [token, token, List.find?_append, hnone, Option.none_or]

/-- A value has no semicolon. -/
theorem filter_ne_token {t : List Char} (h : ';' ∈ t) (cookies : List Cookie) :
    (some t).filter (· ≠ []) ≠ token cookies := by
  rw [Option.filter_some, if_pos (decide_eq_true (List.ne_nil_of_mem h))]
  intro ht
  rw [token, eq_comm, Option.filter_eq_some_iff, Option.map_eq_some_iff] at ht
  obtain ⟨⟨c, -, rfl⟩, -⟩ := ht
  exact c.value_semicolon h

/-- What is taken beyond a cookie that others follow begins with what separates them. -/
theorem semicolon_mem_take {k : Nat} (hafter : after ≠ []) (hk : k ≠ 0) :
    ';' ∈ (headerAfter after).take k := by
  obtain ⟨d, after, rfl⟩ := List.exists_cons_of_ne_nil hafter
  obtain ⟨k, rfl⟩ := Nat.exists_eq_succ_of_ne_zero hk
  rw [headerAfter, List.flatMap_cons, List.cons_append, List.take_succ_cons]
  exact List.mem_cons_self

theorem headerBefore_length : (headerBefore before).length = 0 ↔ before = [] := by
  cases before with
  | nil => simp [headerBefore]
  | cons d before => simp [headerBefore]

/-- What `verify_jwt_token` is called with. -/
theorem validateToken_verified {verifyJwtToken : List Char → String} {corsHeaders : HeaderV}
    {req : APIRequest} : (validateToken verifyJwtToken corsHeaders req).verified =
      (some (tokenOf (req.getHeader "cookie").toList)).filter (· ≠ []) := by
  unfold validateToken
  dsimp only
  split
  · rename_i h
    rw [List.isEmpty_iff.1 h]
    rfl
  · rename_i h
    rw [Option.filter_some_pos (by simpa using h)]
    split <;> rfl

/-- What is taken from the first cookie that `token=` is found in, as to what it should be. -/
theorem tokenOf_split_iff (hbefore : ∀ d ∈ before, ¬ d.Catches) (hc : c.Catches) :
    (some (tokenOf (header (before ++ c :: after)))).filter (· ≠ []) =
        token (before ++ c :: after) ↔
      (c.IsToken ∧ (before = [] ∨ after = [])) ∨
        (¬ c.IsToken ∧ after = [] ∧ Lib.after tokenCookieName c.text = some []) := by
  obtain ⟨j, hj⟩ := exists_find_of_infix hc
  rw [tokenOf_header hbefore hj, token_append hbefore]
  have hbeyond (hafter : after ≠ []) (hk : (headerBefore before).length + j ≠ 0) :
      ';' ∈ c.text.drop (j + tokenCookieName.length) ++
        (headerAfter after).take ((headerBefore before).length + j) :=
    List.mem_append_right _ (semicolon_mem_take hafter hk)
  by_cases htoken : c.IsToken
  · have hj0 : j = 0 := by
      rw [find_eq_zero_iff_isToken.2 htoken] at hj
      exact (Option.some.inj hj).symm
    subst hj0
    by_cases hends : before = [] ∨ after = []
    · have hnothing : (headerAfter after).take ((headerBefore before).length + 0) = [] := by
        rcases hends with rfl | rfl <;> simp [headerBefore, headerAfter]
      have hvalue : c.text.drop (0 + tokenCookieName.length) = c.value := by
        rw [text, show c.name = _ from htoken]
        rfl
      rw [hnothing, hvalue, List.append_nil]
      simp [token, htoken, hends]
    · rw [not_or] at hends
      have hk : (headerBefore before).length + 0 ≠ 0 := mt headerBefore_length.1 hends.1
      exact iff_of_false (filter_ne_token (hbeyond hends.2 hk) _) (by simp [htoken, hends])
  · have hk : (headerBefore before).length + j ≠ 0 := by
      intro h
      obtain ⟨-, rfl⟩ := Nat.add_eq_zero_iff.1 h
      exact htoken (find_eq_zero_iff_isToken.1 hj)
    by_cases hafter : after = []
    · subst hafter
      simp [headerAfter, token, htoken, Lib.after, hj]
    · exact iff_of_false (filter_ne_token (hbeyond hafter hk) _) (by simp [htoken, hafter])

/-- **The token is read as it should be exactly where no other cookie is in the way.** -/
theorem token_read_iff (verifyJwtToken : List Char → String) (corsHeaders : HeaderV)
    (req : APIRequest) (cookies : List Cookie)
    (hcookie : (req.getHeader "cookie").toList = header cookies) :
    (validateToken verifyJwtToken corsHeaders req).verified = token cookies ↔
      InTheClear cookies := by
  rw [validateToken_verified, hcookie, InTheClear]
  have hsplit := List.takeWhile_append_dropWhile (p := fun d : Cookie => ¬ d.Catches) (l := cookies)
  have hbefore : ∀ d ∈ cookies.takeWhile fun d => ¬ d.Catches, ¬ d.Catches := fun d hd => by
    simpa using List.mem_takeWhile_imp hd
  cases hrest : cookies.dropWhile fun d => ¬ d.Catches with
  | nil =>
    rw [hrest, List.append_nil] at hsplit
    rw [hsplit] at hbefore
    have hnone : token cookies = none := by
      rw [token, List.find?_eq_none.2 fun d hd h => hbefore d hd (of_decide_eq_true h).catches]
      rfl
    rw [tokenOf_of_none hbefore, hnone]
    exact iff_of_true rfl trivial
  | cons c after =>
    have hc : c.Catches := by
      have hhead := List.head?_dropWhile_not (fun d : Cookie => ¬ d.Catches) cookies
      rw [hrest] at hhead
      simpa using hhead
    rw [hrest] at hsplit
    have h := @tokenOf_split_iff c _ after hbefore hc
    rwa [hsplit] at h

end Cookie

/-- A request with these cookies. -/
private def cookieRequest (cookies : List Cookie) : APIRequest where
  getMethod := "get"
  getHeader k := if k = "cookie" then String.ofList (Cookie.header cookies) else ""

private def langCookie : Cookie where
  name := "lang".toList
  value := "en".toList
  name_eq := by decide
  name_semicolon := by decide
  value_semicolon := by decide

private def tokenCookie : Cookie where
  name := "token".toList
  value := "abc".toList
  name_eq := by decide
  name_semicolon := by decide
  value_semicolon := by decide

/-- The token first, and another cookie after it. -/
theorem token_read_first :
    (cookieRequest [tokenCookie, langCookie]).getHeader "cookie" = "token=abc; lang=en" ∧
      (validateToken String.ofList [] (cookieRequest [tokenCookie, langCookie])).verified =
        Cookie.token [tokenCookie, langCookie] := by
  refine ⟨by decide, (Cookie.token_read_iff _ _ _ _ (by decide)).2 ?_⟩
  exact .inl ⟨by decide, .inl rfl⟩

/-- Between two others, the token is read with what follows it. -/
theorem token_between_misread :
    let cookies := [langCookie, tokenCookie, langCookie]
    (cookieRequest cookies).getHeader "cookie" = "lang=en; token=abc; lang=en" ∧
      Cookie.token cookies = some "abc".toList ∧
        (validateToken String.ofList [] (cookieRequest cookies)).verified =
          some "abc; lang=en".toList := by
  decide

end Musicat.Server
