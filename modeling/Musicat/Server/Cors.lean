import Mathlib.Tactic.Common
import Musicat.Lib.Find

/-!
# Which origins are let in

`cors` looks for the `Origin` of a request in its `Host`, and lets it in when it
is found at the beginning. An origin is `scheme://host[:port]`, so it is longer
than the host it is the same origin as: what is let in this way is a piece of
the host, and the same origin is turned away unless it is among the enabled
ones.
-/

namespace Musicat.Server

open Lib

/-- What a handler reads of a request. -/
structure APIRequest where
  /-- In lower case. -/
  getMethod : String
  /-- A header that the request does not have is empty. -/
  getHeader : String → String

/-- `header_v_t` -/
abbrev HeaderV := List (String × String)

/-- What a request is ended with. -/
structure Answer where
  writeStatus : String
  writeHeaders : HeaderV := []
  endText : String := ""
  deriving DecidableEq, Repr

def getCorsHeaders (reqAllowHeaders : String) : HeaderV :=
  let allowHeaders := "DNT,User-Agent,X-Requested-With,If-Modified-Since,Cache-Control," ++
    "Content-Type,Range"
  [("Access-Control-Allow-Methods", "HEAD, GET, POST, OPTIONS"),
    ("Access-Control-Allow-Headers",
      if reqAllowHeaders.isEmpty then allowHeaders else allowHeaders ++ "," ++ reqAllowHeaders),
    ("Access-Control-Allow-Credentials", "true"),
    ("X-Content-Type-Options", "nosniff"),
    ("X-XSS-Protection", "1; mode=block")]

/-- The headers of the response to come, none when the request has been ended with an answer. -/
def cors (corsEnabledOrigins : List String) (req : APIRequest) (additionalHeaders : HeaderV) :
    HeaderV × Option Answer :=
  let origin := req.getHeader "origin"
  let hasOrigin := !origin.isEmpty
  if !hasOrigin && (req.getMethod != "get" && req.getMethod != "head") then
    ([], some { writeStatus := "400 Bad Request", endText := "Missing Origin header" })
  else
    let host := req.getHeader "host"
    let hasHost := !host.isEmpty
    let allow :=
      if hasOrigin then
        if hasHost then find origin.toList host.toList == some 0 else origin == "*"
      else true
    if !allow && !corsEnabledOrigins.contains origin then
      ([], some { writeStatus := "403 Forbidden", endText := "Disallowed Origin" })
    else
      ((if hasOrigin then [("Access-Control-Allow-Origin", origin)] else []) ++
        getCorsHeaders (req.getHeader "access-control-request-headers") ++ additionalHeaders, none)

/-! ## Who is to be let in -/

/-- A letter, and then letters, digits, `+`, `-` and `.`. -/
def IsScheme (s : String) : Prop :=
  (∃ c ∈ s.toList.head?, c.isAlpha) ∧ ∀ c ∈ s.toList, c.isAlphanum ∨ c ∈ ['+', '-', '.']

/-- Nothing, or a colon and digits behind a host that has no port yet. -/
def IsPortOf (host port : String) : Prop :=
  port = "" ∨ (':' ∉ host.toList ∨ host.toList.getLast? = some ']') ∧
    ∃ digits : String, digits ≠ "" ∧ (∀ c ∈ digits.toList, c.isDigit) ∧ port = ":" ++ digits

/-- `scheme://host[:port]`, with the host that the request was sent to. -/
def SameOrigin (origin host : String) : Prop :=
  host ≠ "" ∧ ∃ scheme port, IsScheme scheme ∧ IsPortOf host port ∧
    origin = scheme ++ "://" ++ host ++ port

/-- The request is to be let in. -/
def MayEnter (corsEnabledOrigins : List String) (req : APIRequest) : Prop :=
  let origin := req.getHeader "origin"
  (origin = "" ∧ (req.getMethod = "get" ∨ req.getMethod = "head")) ∨
    (origin ≠ "" ∧ (origin ∈ corsEnabledOrigins ∨ SameOrigin origin (req.getHeader "host")))

/-- The caller of `cors` goes on with the request. -/
def Accepts (corsEnabledOrigins : List String) (req : APIRequest) (additionalHeaders : HeaderV) :
    Prop :=
  (cors corsEnabledOrigins req additionalHeaders).1 ≠ []

/-- The origin is found at the beginning of the host, or is `*` where there is no host. -/
def TakenForHost (origin host : String) : Prop :=
  if host = "" then origin = "*" else origin.toList <+: host.toList

instance (origin host : String) : Decidable (TakenForHost origin host) :=
  inferInstanceAs (Decidable (ite _ _ _))

section
variable {corsEnabledOrigins : List String} {req : APIRequest} {additionalHeaders : HeaderV}
  {origin host : String}

theorem getCorsHeaders_ne_nil (reqAllowHeaders : String) : getCorsHeaders reqAllowHeaders ≠ [] :=
  List.cons_ne_nil _ _

/-- What `cors` does with a request that names no origin. -/
theorem cors_of_no_origin (h : req.getHeader "origin" = "") :
    cors corsEnabledOrigins req additionalHeaders =
      if req.getMethod ≠ "get" ∧ req.getMethod ≠ "head" then
        ([], some { writeStatus := "400 Bad Request", endText := "Missing Origin header" })
      else
        (getCorsHeaders (req.getHeader "access-control-request-headers") ++ additionalHeaders,
          none) := by
  simp [cors, h]

/-- What `cors` does with a request that names one. -/
theorem cors_of_origin (h : req.getHeader "origin" ≠ "") :
    cors corsEnabledOrigins req additionalHeaders =
      if TakenForHost (req.getHeader "origin") (req.getHeader "host") ∨
          req.getHeader "origin" ∈ corsEnabledOrigins then
        (("Access-Control-Allow-Origin", req.getHeader "origin") ::
          (getCorsHeaders (req.getHeader "access-control-request-headers") ++ additionalHeaders),
          none)
      else ([], some { writeStatus := "403 Forbidden", endText := "Disallowed Origin" }) := by
  by_cases hhost : req.getHeader "host" = ""
  · by_cases hstar : req.getHeader "origin" = "*" <;>
      by_cases hlist : req.getHeader "origin" ∈ corsEnabledOrigins <;>
        simp [cors, TakenForHost, h, hhost, hstar, hlist]
  · by_cases hstart : (req.getHeader "origin").toList <+: (req.getHeader "host").toList <;>
      by_cases hlist : req.getHeader "origin" ∈ corsEnabledOrigins <;>
        simp [cors, TakenForHost, find_eq_zero_iff, h, hhost, hstart, hlist]

/-- What `cors` accepts. -/
theorem accepts_iff :
    Accepts corsEnabledOrigins req additionalHeaders ↔
      (req.getHeader "origin" = "" ∧ (req.getMethod = "get" ∨ req.getMethod = "head")) ∨
        (req.getHeader "origin" ≠ "" ∧
          (req.getHeader "origin" ∈ corsEnabledOrigins ∨
            TakenForHost (req.getHeader "origin") (req.getHeader "host"))) := by
  by_cases horigin : req.getHeader "origin" = ""
  · rw [Accepts, cors_of_no_origin horigin]
    split
    · rename_i h
      simp only [ne_eq, not_true_eq_false, horigin, true_and, false_and, or_false, false_iff]
      exact fun hm => hm.elim h.1 h.2
    · rename_i h
      rw [ne_eq, List.append_eq_nil_iff]
      simp only [ne_eq, not_true_eq_false, horigin, true_and, false_and, or_false]
      refine iff_of_true (fun he => getCorsHeaders_ne_nil _ he.1) ?_
      by_contra hm
      exact h ⟨fun hget => hm (.inl hget), fun hhead => hm (.inr hhead)⟩
  · rw [Accepts, cors_of_origin horigin]
    split
    · rename_i h
      exact iff_of_true (List.cons_ne_nil _ _) (.inr ⟨horigin, h.symm⟩)
    · rename_i h
      refine iff_of_false (fun hne => hne rfl) ?_
      rintro (⟨h', -⟩ | ⟨-, hm⟩)
      · exact horigin h'
      · exact h hm.symm

/-- **A request is ended exactly where it is not accepted.** -/
theorem ended_iff :
    (∃ a, (cors corsEnabledOrigins req additionalHeaders).2 = some a) ↔
      ¬ Accepts corsEnabledOrigins req additionalHeaders := by
  by_cases horigin : req.getHeader "origin" = ""
  · rw [Accepts, cors_of_no_origin horigin]
    split
    · simp
    · simp [getCorsHeaders_ne_nil]
  · rw [Accepts, cors_of_origin horigin]
    split <;> simp

/-! ## Where the two differ -/

/-- An origin is longer than its host. -/
theorem SameOrigin.length_lt (h : SameOrigin origin host) : host.length < origin.length := by
  obtain ⟨-, scheme, port, -, -, rfl⟩ := h
  simp only [String.length_append]
  have hcolon : "://".length = 3 := rfl
  omega

/-- What is taken for the host is not its origin. -/
theorem TakenForHost.not_sameOrigin (h : TakenForHost origin host) : ¬ SameOrigin origin host := by
  intro hsame
  rw [TakenForHost, if_neg hsame.1] at h
  exact absurd h.length_le (Nat.not_le.2 hsame.length_lt)

/-- **`cors` lets in whom it should exactly where the host does not matter**: a request without an
origin, an enabled one, or an origin that is neither taken for the host nor the host's. -/
theorem cors_lets_in_iff (corsEnabledOrigins : List String) (req : APIRequest)
    (additionalHeaders : HeaderV) :
    (Accepts corsEnabledOrigins req additionalHeaders ↔ MayEnter corsEnabledOrigins req) ↔
      req.getHeader "origin" = "" ∨ req.getHeader "origin" ∈ corsEnabledOrigins ∨
        (¬ TakenForHost (req.getHeader "origin") (req.getHeader "host") ∧
          ¬ SameOrigin (req.getHeader "origin") (req.getHeader "host")) := by
  rw [accepts_iff, MayEnter]
  by_cases horigin : req.getHeader "origin" = ""
  · simp [horigin]
  by_cases hlist : req.getHeader "origin" ∈ corsEnabledOrigins
  · simp [horigin, hlist]
  simp only [ne_eq, horigin, hlist, not_false_eq_true, true_and, false_and, false_or]
  constructor
  · intro h
    exact ⟨fun ht => ht.not_sameOrigin (h.1 ht), fun hs => (h.2 hs).not_sameOrigin hs⟩
  · rintro ⟨ht, hs⟩
    exact iff_of_false ht hs

end

/-- A request for a page of `example.com`. -/
private def pageRequest (origin : String) : APIRequest where
  getMethod := "get"
  getHeader k := if k = "origin" then origin else if k = "host" then "example.com" else ""

/-- A piece of the host is let in, and the host's own origin is turned away. -/
theorem prefix_let_in_origin_turned_away :
    (Accepts [] (pageRequest "exam") [] ∧ ¬ MayEnter [] (pageRequest "exam")) ∧
      ¬ Accepts [] (pageRequest "https://example.com") [] ∧
        MayEnter [] (pageRequest "https://example.com") := by
  refine ⟨⟨accepts_iff.2 (by decide), ?_⟩, mt accepts_iff.1 (by decide), ?_⟩
  · rintro (⟨h, -⟩ | ⟨-, h | h⟩)
    · exact absurd h (by decide)
    · exact List.not_mem_nil h
    · exact absurd (SameOrigin.length_lt h) (by decide)
  · refine .inr ⟨by decide, .inr ⟨by decide, "https", "", ⟨?_, ?_⟩, .inl rfl, by decide⟩⟩
    · exact ⟨'h', by decide, by decide⟩
    · have hletters : "https".toList.all Char.isAlphanum = true := by decide
      exact fun c hc => .inl (List.all_eq_true.1 hletters c hc)

end Musicat.Server
