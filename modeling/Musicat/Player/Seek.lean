import Mathlib.Data.Nat.Digits.Defs
import Musicat.Lib.Word
import Musicat.Player.SeekParser
import Musicat.Server.Dashboard

/-!
# Seeking

`seek::run` sets the position of the current track to the timestamp that the
seek parser reads, in milliseconds and in bytes; the dashboard's `handle_seek`
sets it to any `uint64_t`. The rewind and forward buttons print a duration, and
run the seek command with it.
-/

namespace Musicat.Player

open Lib Server

def secondMs : Int := 1000
def minuteMs : Int := secondMs * 60
def hourMs : Int := 60 * minuteMs

/-- `total_ms` of `run`: the fields are converted to `uint64_t` on the way. -/
def totalMs (parsed : ArgTo) : Nat :=
  toU64 (toU64 (toU64 (toU64 (parsed.hour * hourMs) + toU64 (parsed.minute * minuteMs)) +
    toU64 (parsed.second * secondMs)) + parsed.ms)

/-- `util::player_has_current_track`. -/
def playerHasCurrentTrack (player : Option GuildPlayer) : Bool :=
  match player with
  | none => false
  | some p => p.currentTrack.raw != "null" && !p.queue.isEmpty

/-- The reply to a text that is not valid. -/
def invalidFormat : String :=
  "Invalid format, seek format should be " ++
    "`[[hour:]minute:]second[.ms]`, Timestamp exceeding " ++
    "duration " ++
    "implies skip.\nExamples:\n`360` " ++
    "-> second\n`270.629` -> second.ms\n`3:24` -> " ++
    "minute:second\n`2:15:37.899` -> hour:minute:second.ms"

/-- The current track with its position and what it is to seek to. -/
def GuildPlayer.soughtTo (p : GuildPlayer) (byte : Int) (seekTo : String) : GuildPlayer :=
  { p with currentTrack := { p.currentTrack with currentByte := byte, seekTo } }

/-- What `run` leaves: the player, the reply, and what is given to `publish_seek`. -/
structure SeekRun where
  player : Option GuildPlayer
  out : String
  published : Option Nat := none
  deriving DecidableEq, Repr

/-- `seek::run`; `none` when it throws. -/
def seekRun (player : Option GuildPlayer) (argTo : String) : Option SeekRun :=
  (parseArgTo argTo.toList).map fun parsed =>
    if !parsed.valid then { player, out := invalidFormat }
    else
      match player with
      | some p =>
        if playerHasCurrentTrack (some p) then
          let total := totalMs parsed
          { player := some (p.soughtTo (toI64 (toU64 (opusBytePerMs * total))) argTo),
            out := "Seeking to " ++ argTo, published := some total }
        else { player, out := "I'm not playing anything" }
      | none => { player, out := "I'm not playing anything" }

/-! ## The position -/

/-- The milliseconds of a timestamp. -/
def ArgTo.exactMs (r : ArgTo) : Int := ((r.hour * 60 + r.minute) * 60 + r.second) * 1000 + r.ms

/-- The texts that stand for too many seconds: alone, or with minutes. -/
inductive TooLong : List Char → Prop where
  | seconds {s : List Char} (hs : Group s) (h : 48038396025286 ≤ groupValue s) : TooLong s
  | minutes {m s : List Char} (hm : Group m) (hs : Group s)
      (h : 48038396025286 ≤ groupValue m * 60 + groupValue s) : TooLong (m ++ ':' :: s)

section
variable {g str : List Char} {r : ArgTo} {k : Nat}

theorem groupValue_nonneg (g : List Char) : 0 ≤ groupValue g := Int.natCast_nonneg _

theorem groupValue_lt (hg : Group g) (h : g.length ≤ k) : groupValue g < 10 ^ k := by
  have hlt := ofDigitChars_lt hg.2
  have hpow : 10 ^ g.length ≤ 10 ^ k := Nat.pow_le_pow_right (by decide) h
  have hcast : ((10 ^ k : Nat) : Int) = 10 ^ k := by push_cast; rfl
  rw [← hcast]
  exact Int.ofNat_lt.2 (Nat.lt_of_lt_of_le hlt hpow)

/-- The seconds of a clock, which are bounded by its length. -/
theorem seconds_of_clock {t : List Char} {hour minute second : Int}
    (h : ClockForm t hour minute second) (hlength : t.length ≤ 14) :
    let seconds := (hour * 60 + minute) * 60 + second
    0 ≤ seconds ∧ seconds < 10 ^ 14 ∧ (t.length ≤ 12 → seconds < 10 ^ 12) ∧
      (seconds < 48038396025286 ∨ TooLong t) := by
  cases h with
  | second hs =>
    have hlt := groupValue_lt hs hlength
    have hnonneg := groupValue_nonneg t
    refine ⟨by omega, by omega, fun hshort => ?_, ?_⟩
    · have := groupValue_lt hs hshort
      omega
    · rcases Int.lt_or_le (groupValue t) 48038396025286 with hlt | hle
      · exact .inl (by omega)
      · exact .inr (.seconds hs hle)
  | minute hm hs =>
    rename_i m s
    have hm' := List.length_pos_of_ne_nil hm.1
    have hs' := List.length_pos_of_ne_nil hs.1
    rw [List.length_append, List.length_cons] at hlength ⊢
    have hmlt := groupValue_lt (k := 12) hm (by omega)
    have hslt := groupValue_lt (k := 12) hs (by omega)
    have hmnonneg := groupValue_nonneg m
    have hsnonneg := groupValue_nonneg s
    refine ⟨by omega, by omega, fun hshort => ?_, ?_⟩
    · have hmlt := groupValue_lt (k := 10) hm (by omega)
      have hslt := groupValue_lt (k := 10) hs (by omega)
      omega
    · rcases Int.lt_or_le (groupValue m * 60 + groupValue s) 48038396025286 with hlt | hle
      · exact .inl (by omega)
      · exact .inr (.minutes hm hs hle)
  | hour hh hm hs =>
    rename_i h m s
    have hh' := List.length_pos_of_ne_nil hh.1
    have hm' := List.length_pos_of_ne_nil hm.1
    have hs' := List.length_pos_of_ne_nil hs.1
    simp only [List.length_append, List.length_cons] at hlength ⊢
    have hhlt := groupValue_lt (k := 10) hh (by omega)
    have hmlt := groupValue_lt (k := 10) hm (by omega)
    have hslt := groupValue_lt (k := 10) hs (by omega)
    have hhnonneg := groupValue_nonneg h
    have hmnonneg := groupValue_nonneg m
    have hsnonneg := groupValue_nonneg s
    refine ⟨by omega, by omega, fun hshort => ?_, .inl (by omega)⟩
    have hhlt := groupValue_lt (k := 8) hh (by omega)
    have hmlt := groupValue_lt (k := 8) hm (by omega)
    have hslt := groupValue_lt (k := 8) hs (by omega)
    omega

/-- A text that is too long has no other reading. -/
theorem exactMs_of_tooLong (h : TooLong str) (hform : SeekForm str r) (hlength : str.length ≤ 14) :
    48038396025286000 ≤ r.exactMs := by
  have hread {v : ArgTo} (hv : SeekForm str v) : r = v :=
    Option.some.inj ((parseArgTo_of_seekForm hform hlength).symm.trans
      (parseArgTo_of_seekForm hv hlength))
  cases h with
  | seconds hs h =>
    rw [hread (.whole (.second hs))]
    dsimp only [ArgTo.exactMs]
    omega
  | minutes hm hs h =>
    rw [hread (.whole (.minute hm hs))]
    dsimp only [ArgTo.exactMs]
    omega

/-- **The bytes of a timestamp fit** exactly if it is not too long. -/
theorem exactMs_spec (hform : SeekForm str r) (hlength : str.length ≤ 14) :
    0 ≤ r.exactMs ∧ r.exactMs < 2 ^ 63 ∧
      (opusBytePerMs * r.exactMs < 2 ^ 63 ↔ ¬ TooLong str) := by
  rw [show opusBytePerMs = 192 from rfl]
  have hlong := fun h : TooLong str => exactMs_of_tooLong h hform hlength
  cases hform with
  | whole ht =>
    obtain ⟨hnonneg, hlt, -, hfits⟩ := seconds_of_clock ht hlength
    dsimp only [ArgTo.exactMs] at hlong ⊢
    refine ⟨by omega, by omega, fun hlt hlong' => ?_, fun hnot => ?_⟩
    · have := hlong hlong'
      omega
    · have := hfits.resolve_right hnot
      omega
  | point ht hf =>
    rename_i t f hour minute second
    have hf' := List.length_pos_of_ne_nil hf.1
    rw [List.length_append, List.length_cons] at hlength
    obtain ⟨hnonneg, -, hshort, -⟩ := seconds_of_clock ht (by omega)
    have hlt := hshort (by omega)
    have hflt := groupValue_lt (k := 13) hf (by omega)
    have hfnonneg := groupValue_nonneg f
    dsimp only [ArgTo.exactMs] at hlong ⊢
    refine ⟨by omega, by omega, fun hlt hlong' => ?_, fun hnot => ?_⟩
    · have := hlong hlong'
      omega
    · omega

/-- The milliseconds are added up as one `uint64_t`. -/
theorem totalMs_eq (r : ArgTo) : totalMs r = toU64 r.exactMs := by
  have hminute : toU64 (toU64 (r.hour * hourMs) + toU64 (r.minute * minuteMs)) =
      toU64 (r.hour * hourMs + r.minute * minuteMs) :=
    toU64_add_congr (toU64_toU64 _) (toU64_toU64 _)
  have hsecond : toU64 (toU64 (r.hour * hourMs + r.minute * minuteMs) +
      toU64 (r.second * secondMs)) =
      toU64 (r.hour * hourMs + r.minute * minuteMs + r.second * secondMs) :=
    toU64_add_congr (toU64_toU64 _) (toU64_toU64 _)
  rw [totalMs, hminute, hsecond, toU64_add_congr (toU64_toU64 _) rfl]
  congr 1
  unfold ArgTo.exactMs hourMs minuteMs secondMs
  omega

/-- What a seek leaves, with a track to seek in. -/
theorem seekRun_eq {p : GuildPlayer} {argTo : String} (hcurrent : playerHasCurrentTrack (some p))
    (hparse : parseArgTo argTo.toList = some r) (hvalid : r.valid = true) :
    seekRun (some p) argTo =
      some {
        player := some (p.soughtTo (toI64 (opusBytePerMs * toU64 r.exactMs)) argTo),
        out := "Seeking to " ++ argTo, published := some (toU64 r.exactMs) } := by
  rw [seekRun, hparse, Option.map_some, if_neg (by simp [hvalid])]
  dsimp only
  rw [if_pos hcurrent, totalMs_eq, toI64_toU64]

end

/-- The seek is to the position that the text stands for, in milliseconds and in bytes. -/
def SeeksExactly (p : GuildPlayer) (argTo : String) (r : ArgTo) : Prop :=
  seekRun (some p) argTo =
    some {
      player := some (p.soughtTo (opusBytePerMs * r.exactMs) argTo),
      out := "Seeking to " ++ argTo, published := some r.exactMs.toNat }

/-- The dashboard's seek is to the position it was sent. -/
def HandlesExactly (c : Conn) (p : GuildPlayer) (totalMs : Nat) : Prop :=
  (handleSeek (.unsigned totalMs) c).1.world.player =
    some (p.soughtTo (opusBytePerMs * totalMs) "y")

section
variable {p : GuildPlayer} {argTo : String} {r : ArgTo}

theorem soughtTo_inj {a b : Int} : p.soughtTo a argTo = p.soughtTo b argTo ↔ a = b := by
  constructor
  · exact fun h => congrArg (fun p : GuildPlayer => p.currentTrack.currentByte) h
  · exact fun h => h ▸ rfl

/-- A timestamp whose bytes fit is sought exactly. -/
theorem seeksExactly_iff_lt (hcurrent : playerHasCurrentTrack (some p))
    (hparse : parseArgTo argTo.toList = some r) (hvalid : r.valid = true) :
    SeeksExactly p argTo r ↔ opusBytePerMs * r.exactMs < 2 ^ 63 := by
  obtain ⟨hlength, hform⟩ := seekForm_of_parseArgTo hparse hvalid
  obtain ⟨hnonneg, hlt, -⟩ := exactMs_spec hform hlength
  have htotal : (toU64 r.exactMs : Int) = r.exactMs := toU64_of_nonneg hnonneg (by omega)
  have hbyte : 0 ≤ opusBytePerMs * r.exactMs := Int.mul_nonneg (by decide) hnonneg
  rw [SeeksExactly, seekRun_eq hcurrent hparse hvalid, htotal]
  constructor
  · intro h
    have hplayer := Option.some.inj (congrArg SeekRun.player (Option.some.inj h))
    exact (toI64_eq_self_iff.1 (soughtTo_inj.1 hplayer)).2
  · intro h
    have hcast : toU64 r.exactMs = r.exactMs.toNat := by omega
    rw [toI64_eq_self_iff.2 ⟨by omega, h⟩, hcast]

theorem handlesExactly_iff {c c' : Conn} (hcheck : checkUserVoicestate c = (c', .ok p))
    (hprocessing : p.processingAudio = true) (totalMs : Nat) :
    HandlesExactly c p totalMs ↔ totalMs ≤ 48038396025285290 := by
  have hplayer : (handleSeek (.unsigned totalMs) c).1.world.player =
      some (p.soughtTo (toI64 (opusBytePerMs * totalMs)) "y") := by
    rw [handleSeek, withControl, hcheck]
    dsimp only
    rw [if_neg (by simp [hprocessing])]
    rfl
  rw [HandlesExactly, hplayer, Option.some.injEq, soughtTo_inj, toI64_eq_self_iff,
    show opusBytePerMs = 192 from rfl]
  omega

end

/-- **Positions are exact** but for timestamps that are too long, and for numbers of milliseconds
that are too large. -/
theorem seek_exact_iff (p : GuildPlayer) (argTo : String) (r : ArgTo) (c c' : Conn)
    (totalMs : Nat) :
    (playerHasCurrentTrack (some p) = true → parseArgTo argTo.toList = some r → r.valid = true →
        (SeeksExactly p argTo r ↔ ¬ TooLong argTo.toList)) ∧
      (checkUserVoicestate c = (c', .ok p) → p.processingAudio = true →
        (HandlesExactly c p totalMs ↔ totalMs ≤ 48038396025285290)) := by
  constructor
  · intro hcurrent hparse hvalid
    obtain ⟨hlength, hform⟩ := seekForm_of_parseArgTo hparse hvalid
    exact (seeksExactly_iff_lt hcurrent hparse hvalid).trans (exactMs_spec hform hlength).2.2
  · intro hcheck hprocessing
    exact handlesExactly_iff hcheck hprocessing totalMs

private def seekingPlayer : GuildPlayer where
  queue := [{ filename := "a" }]
  currentTrack := { raw := "a", filename := "a" }
  dashboardControlRequests := [1]
  processingAudio := true

private def seekingConn : Conn where
  sdata := { serverId := 5, userId := 1 }
  world := { player := some seekingPlayer }

theorem seek_exact_to_second :
    (SeeksExactly seekingPlayer "3:24" { minute := 3, second := 24, valid := true } ↔
        ¬ TooLong "3:24".toList) ∧
      (HandlesExactly seekingConn seekingPlayer 204000 ↔ 204000 ≤ 48038396025285290) := by
  have h := seek_exact_iff seekingPlayer "3:24" { minute := 3, second := 24, valid := true }
    seekingConn seekingConn 204000
  exact ⟨h.1 (by decide) (by decide) rfl, h.2 rfl rfl⟩

/-- A text of 14 digits, and the largest number that a client can send. -/
theorem seek_wraps :
    parseArgTo "99999999999999".toList = some { second := 99999999999999, valid := true } ∧
      ¬ SeeksExactly seekingPlayer "99999999999999" { second := 99999999999999, valid := true } ∧
      ¬ HandlesExactly seekingConn seekingPlayer (2 ^ 64 - 1) := by
  have hparse : parseArgTo "99999999999999".toList =
      some { second := 99999999999999, valid := true } := by decide
  refine ⟨hparse, ?_, ?_⟩
  · rw [seeksExactly_iff_lt (by decide) hparse rfl]
    decide
  · have hcheck : checkUserVoicestate seekingConn = (seekingConn, .ok seekingPlayer) := rfl
    rw [handlesExactly_iff hcheck rfl]
    decide

/-! ## Printed durations -/

/-- A number of at least two digits. -/
def paddedTwo (n : Nat) : List Char :=
  let s := digits n
  (if s.length < 2 then ['0'] else []) ++ s

/-- `format_duration`; minutes and seconds fit in a `uint8_t`. -/
def formatDuration (dur : Nat) : List Char :=
  let secondr := dur / 1000
  let minuter := secondr / 60
  let hour := minuter / 60
  let minute := minuter % 60
  let second := secondr % 60
  (if hour ≠ 0 then paddedTwo hour ++ [':'] else []) ++
    (paddedTwo minute ++ [':'] ++ paddedTwo second)

/-- `get_to_ms_rewind`, for a `progress.current_ms`. -/
def getToMsRewind (currentMs : Int) : List Char :=
  if currentMs < secondSeekStep then ['0']
  else formatDuration (toU64 (toU64 currentMs - secondSeekStep))

/-- `get_to_ms_forward`. -/
def getToMsForward (currentMs : Int) : List Char :=
  formatDuration (toU64 (toU64 currentMs + secondSeekStep))

section
variable {n d k : Nat}

theorem group_paddedTwo (n : Nat) : Group (paddedTwo n) := by
  have hne : digits n ≠ [] := Nat.toDigits_ne_nil
  refine ⟨List.append_ne_nil_of_right_ne_nil _ hne, fun c hc => ?_⟩
  rcases List.mem_append.1 hc with hc | hc
  · split at hc
    · obtain rfl := List.mem_singleton.1 hc
      rfl
    · cases hc
  · exact isDigit_of_mem_digits hc

theorem groupValue_paddedTwo (n : Nat) : groupValue (paddedTwo n) = n := by
  have hvalue : Nat.ofDigitChars 10 (digits n) 0 = n := Nat.ofDigitChars_ten_toDigits
  rw [groupValue, paddedTwo]
  split
  · rw [List.singleton_append, Nat.ofDigitChars_cons]
    exact congrArg _ hvalue
  · rw [List.nil_append, hvalue]

theorem length_paddedTwo (hk : 2 ≤ k) (h : n < 10 ^ k) : (paddedTwo n).length ≤ k := by
  have hlength : (digits n).length ≤ k := Nat.toDigits_length 10 n k (by omega) h
  rw [paddedTwo]
  split
  · rw [List.length_append, List.length_singleton]
    omega
  · exact hlength

/-- **A printed duration is a timestamp** of its whole seconds, for fewer than `10 ^ 8` hours. -/
theorem seekForm_formatDuration (h : d < 10 ^ 8 * 3600000) :
    ∃ r : ArgTo, SeekForm (formatDuration d) r ∧ (formatDuration d).length ≤ 14 ∧
      r.valid = true ∧ r.ms = 0 ∧ (r.hour * 60 + r.minute) * 60 + r.second = (d / 1000 : Nat) := by
  have hminute := length_paddedTwo (n := d / 1000 / 60 % 60) (Nat.le_refl 2) (by omega)
  have hsecond := length_paddedTwo (n := d / 1000 % 60) (Nat.le_refl 2) (by omega)
  unfold formatDuration
  dsimp only
  split
  · have hhour := length_paddedTwo (n := d / 1000 / 60 / 60) (k := 8) (by decide) (by omega)
    have hform := SeekForm.whole (.hour (group_paddedTwo (d / 1000 / 60 / 60))
      (group_paddedTwo (d / 1000 / 60 % 60)) (group_paddedTwo (d / 1000 % 60)))
    refine ⟨_, by simpa using hform, ?_, rfl, rfl, ?_⟩
    · simp only [List.length_append, List.length_singleton]
      omega
    · dsimp only
      rw [groupValue_paddedTwo, groupValue_paddedTwo, groupValue_paddedTwo]
      omega
  · rename_i hzero
    have hform := SeekForm.whole (.minute (group_paddedTwo (d / 1000 / 60 % 60))
      (group_paddedTwo (d / 1000 % 60)))
    refine ⟨_, by simpa using hform, ?_, rfl, rfl, ?_⟩
    · simp only [List.nil_append, List.length_append, List.length_singleton]
      omega
    · dsimp only
      rw [groupValue_paddedTwo, groupValue_paddedTwo]
      omega

/-- The command, run with a text, seeks to whole seconds. -/
def SeeksToSecond (p : GuildPlayer) (text : List Char) (seconds : Nat) : Prop :=
  seekRun (some p) (String.ofList text) =
    some {
      player := some (p.soughtTo (opusBytePerMs * (seconds * 1000 : Nat)) (String.ofList text)),
      out := "Seeking to " ++ String.ofList text, published := some (seconds * 1000) }

/-- The seconds that a text is parsed to, if it is valid and has no milliseconds. -/
def ParsesTo (text : List Char) (seconds : Nat) : Prop :=
  ∃ r, parseArgTo text = some r ∧ r.valid = true ∧ r.ms = 0 ∧
    (r.hour * 60 + r.minute) * 60 + r.second = seconds

theorem parsesTo_formatDuration (h : d < 10 ^ 8 * 3600000) :
    ParsesTo (formatDuration d) (d / 1000) := by
  obtain ⟨r, hform, hlength, hvalid, hms, hseconds⟩ := seekForm_formatDuration h
  exact ⟨r, parseArgTo_of_seekForm hform hlength, hvalid, hms, hseconds⟩

/-- A seek to whole seconds. -/
theorem seeksToSecond_of_parsesTo {p : GuildPlayer} {text : List Char} {seconds : Nat}
    (hcurrent : playerHasCurrentTrack (some p)) (h : ParsesTo text seconds)
    (hlt : seconds < 10 ^ 12) : SeeksToSecond p text seconds := by
  obtain ⟨r, hparse, hvalid, hms, hseconds⟩ := h
  have hexact : r.exactMs = (seconds * 1000 : Nat) := by
    rw [ArgTo.exactMs, hseconds, hms]
    omega
  have hlist : (String.ofList text).toList = text := String.toList_ofList
  rw [← hlist] at hparse
  have hseek := (seeksExactly_iff_lt hcurrent hparse hvalid).2 (by
    rw [hexact, show opusBytePerMs = 192 from rfl]
    omega)
  rw [SeeksExactly, hexact, Int.toNat_natCast] at hseek
  exact hseek

/-- A rewind is by the step, or to the start. -/
theorem rewind_parsesTo {currentMs : Nat} (hcurrent : currentMs < 2 ^ 63)
    (h : currentMs - 15000 < 10 ^ 8 * 3600000) :
    ParsesTo (getToMsRewind currentMs) ((currentMs - 15000) / 1000) := by
  rw [getToMsRewind, show secondSeekStep = 15000 from rfl]
  split
  · rw [show (currentMs - 15000) / 1000 = 0 by omega]
    exact ⟨{ valid := true }, by decide, rfl, rfl, rfl⟩
  · have hstep : toU64 ((toU64 currentMs : Int) - 15000) = currentMs - 15000 := by
      unfold toU64
      omega
    rw [hstep]
    exact parsesTo_formatDuration h

theorem forward_parsesTo {currentMs : Nat} (h : currentMs + 15000 < 10 ^ 8 * 3600000) :
    ParsesTo (getToMsForward currentMs) ((currentMs + 15000) / 1000) := by
  have hstep : toU64 ((toU64 currentMs : Int) + 15000) = currentMs + 15000 := by
    unfold toU64
    omega
  rw [getToMsForward, show secondSeekStep = 15000 from rfl, hstep]
  exact parsesTo_formatDuration h

end

/-- **Printed durations are parsed as their whole seconds**, and the rewind and forward buttons seek
to the whole second of where they lead. -/
theorem duration_buttons_exact (d : Nat) (p : GuildPlayer) (currentMs : Nat)
    (hd : d < 10 ^ 8 * 3600000) (hplayer : playerHasCurrentTrack (some p) = true)
    (hcurrent : currentMs < 2 ^ 63) :
    ParsesTo (formatDuration d) (d / 1000) ∧
      (currentMs - 15000 < 10 ^ 8 * 3600000 →
        SeeksToSecond p (getToMsRewind currentMs) ((currentMs - 15000) / 1000)) ∧
      (currentMs + 15000 < 10 ^ 8 * 3600000 →
        SeeksToSecond p (getToMsForward currentMs) ((currentMs + 15000) / 1000)) := by
  refine ⟨parsesTo_formatDuration hd, fun h => ?_, fun h => ?_⟩
  · exact seeksToSecond_of_parsesTo hplayer (rewind_parsesTo hcurrent h) (by omega)
  · exact seeksToSecond_of_parsesTo hplayer (forward_parsesTo h) (by omega)

theorem duration_buttons_exact_hour :
    ParsesTo (formatDuration 3600000) 3600 ∧
      SeeksToSecond seekingPlayer (getToMsRewind 3600000) 3585 ∧
      SeeksToSecond seekingPlayer (getToMsForward 3600000) 3615 := by
  obtain ⟨hparse, hrewind, hforward⟩ := duration_buttons_exact 3600000 seekingPlayer 3600000
    (by decide) (by decide) (by decide)
  exact ⟨hparse, hrewind (by decide), hforward (by decide)⟩

end Musicat.Player
