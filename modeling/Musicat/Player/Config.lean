import Mathlib.Logic.Function.Basic
import Musicat.Filters.FxStates
import Musicat.Lib.Clients
import Musicat.Stream.EndOfTrack

/-!
# The configuration of a player and its row

Each setter changes the player in memory and one column of the guild's row in
`guilds_player_config`. The first of them inserts the row, with the columns'
defaults for what it does not name; the others update what they name. Loading
the row into a new player gives back what the old one had when every column
agrees with the player (`Copied`): it does when the setting has been set, or
while there is no row. Where another setter made the row, the player still has
the value of `init` and the column its default, and these differ for the
autoplay state and the history size.
-/

namespace Musicat.Player

open Lib Filters Server

/-- A row of `guilds_player_config`, each column with its default; `none` is null. -/
structure ConfigRow where
  autoplayState : Option Bool := some false
  autoplayThreshold : Option Int := some 0
  loopMode : Option Int := some 0
  fxStates : Option Json := none

/-- The `CHECK`s of the table. -/
def ConfigRow.Checked (row : ConfigRow) : Prop :=
  (∀ n ∈ row.autoplayThreshold, 0 ≤ n ∧ n ≤ 10000) ∧ ∀ n ∈ row.loopMode, 0 ≤ n ∧ n ≤ 10

instance (row : ConfigRow) : Decidable row.Checked :=
  inferInstanceAs (Decidable ((∀ n ∈ row.autoplayThreshold, 0 ≤ n ∧ n ≤ 10000) ∧
    ∀ n ∈ row.loopMode, 0 ≤ n ∧ n ≤ 10))

/-- `_stringify_loop_mode`, the number that its text is. -/
def stringifyLoopMode : LoopMode → Int
  | .lNone => 0
  | .lSong => 1
  | .lQueue => 2
  | .lSongQueue => 3

/-- `_parse_loop_mode`. -/
def parseLoopMode (tp : Int) : LoopMode :=
  if tp = 1 then .lSong
  else if tp = 2 then .lQueue
  else if tp = 3 then .lSongQueue
  else .lNone

/-- What `update_guild_player_config` is called with; a null pointer is `none`. -/
structure ConfigUpdate where
  autoplayState : Option Bool := none
  autoplayThreshold : Option Int := none
  loopMode : Option LoopMode := none
  fxStates : Json := .null

namespace ConfigUpdate

def isEmpty (u : ConfigUpdate) : Bool :=
  u.autoplayState.isNone && u.autoplayThreshold.isNone && u.loopMode.isNone && !u.fxStates.isObject

/-- The columns that are named get their values. -/
def assign (u : ConfigUpdate) (row : ConfigRow) : ConfigRow where
  autoplayState := u.autoplayState.or row.autoplayState
  autoplayThreshold := u.autoplayThreshold.or row.autoplayThreshold
  loopMode := (u.loopMode.map stringifyLoopMode).or row.loopMode
  fxStates := if u.fxStates.isObject then some u.fxStates else row.fxStates

/-- `INSERT .. ON CONFLICT DO UPDATE`; a row that fails a check is refused. -/
def upsert (u : ConfigUpdate) (row : Option ConfigRow) : Option ConfigRow :=
  let new := u.assign (row.getD {})
  if new.Checked then some new else row

/-- The guild's row after the update. -/
def updateRow (guildId : Nat) (u : ConfigUpdate) (row : Option ConfigRow) : Option ConfigRow :=
  if guildId = 0 then row else if u.isEmpty then row else u.upsert row

end ConfigUpdate

abbrev ConfigTable := Nat → Option ConfigRow

def updateGuildPlayerConfig (guildId : Nat) (u : ConfigUpdate) (table : ConfigTable) :
    ConfigTable :=
  Function.update table guildId (u.updateRow guildId (table guildId))

/-- `get_guild_player_config`; every column of a row that is not there is null. -/
def getGuildPlayerConfig (guildId : Nat) (table : ConfigTable) : Option ConfigRow :=
  if guildId = 0 then none else table guildId

/-- `parse_guild_player_config_PGresult`, with its `set`. -/
def parseGuildPlayerConfig (res : Option ConfigRow) : PlayerConfig × Bool :=
  let autoplay := res.bind (·.autoplayState)
  let threshold := res.bind (·.autoplayThreshold)
  let loopMode := res.bind (·.loopMode)
  ({ autoplayState := autoplay.getD false
     autoplayThreshold := threshold.getD 0
     loopMode := (loopMode.map parseLoopMode).getD .lNone },
    autoplay = some true || threshold.isSome || loopMode.isSome || (res.bind (·.fxStates)).isSome)

/-- What `load_guild_player_config` finds. -/
def savedConfig (res : Option ConfigRow) : Option PlayerConfig :=
  let conf := parseGuildPlayerConfig res
  if conf.2 then some conf.1 else none

/-! ## The setters -/

inductive ConfigCall where
  | setAutoPlay (state : Bool)
  | setMaxHistorySize (siz : Nat)
  | setLoopMode (mode : Int)
  deriving DecidableEq

namespace GuildPlayer

def setAutoPlay (state : Bool) (p : GuildPlayer) : GuildPlayer × ConfigUpdate :=
  ({ p with autoPlay := state }, { autoplayState := some state })

def setMaxHistorySize (siz : Nat) (p : GuildPlayer) : GuildPlayer × ConfigUpdate :=
  ({ p with maxHistorySize := siz }, { autoplayThreshold := some (toInt32 siz) })

def setLoopMode (mode : Int) (p : GuildPlayer) : GuildPlayer × ConfigUpdate :=
  let p := Stream.setLoopMode mode p
  (p, { loopMode := some p.loopMode })

end GuildPlayer

def ConfigCall.apply : ConfigCall → GuildPlayer → GuildPlayer × ConfigUpdate
  | setAutoPlay state, p => p.setAutoPlay state
  | setMaxHistorySize siz, p => p.setMaxHistorySize siz
  | setLoopMode mode, p => p.setLoopMode mode

/-- The players of all guilds and the table. -/
structure Configs where
  players : Nat → GuildPlayer := fun guildId => { guildId }
  table : ConfigTable := fun _ => none

/-- A setter is called on the player of a guild. -/
def configStep (s : Configs) (call : Nat × ConfigCall) : Option Configs :=
  let new := call.2.apply (s.players call.1)
  some {
    players := Function.update s.players call.1 new.1
    table := updateGuildPlayerConfig call.1 new.2 s.table }

/-- A new player of the guild, with the stored configuration loaded. -/
def Configs.restarted (s : Configs) (guildId : Nat) : GuildPlayer :=
  ({ guildId } : GuildPlayer).loadGuildPlayerConfig
    { savedConfig := savedConfig (getGuildPlayerConfig guildId s.table) }

/-- The player and the row of one guild. -/
def Configs.view (guildId : Nat) (s : Configs) : GuildPlayer × Option ConfigRow :=
  (s.players guildId, s.table guildId)

def guildStep (v : GuildPlayer × Option ConfigRow) (call : Nat × ConfigCall) :
    Option (GuildPlayer × Option ConfigRow) :=
  let new := call.2.apply v.1
  some (new.1, new.2.updateRow call.1 v.2)

/-- **A setter concerns the player and the row of its own guild.** -/
theorem configStep_clients :
    Clients configStep Prod.fst Configs.view guildStep (fun _ => True) where
  inv _ _ := trivial
  own {s call} _ := by
    simp [configStep, guildStep, Configs.view, updateGuildPlayerConfig]
  others {s s' call guildId} _ h hne := by
    cases h
    simp [Configs.view, updateGuildPlayerConfig, hne]

/-! ## A setting and its column -/

section
variable {β : Type} (sets : ConfigCall → Bool) (initial dflt : β)

/-- A setting in memory and its column after the calls `l`: equal once it has been set; until
then the setting is as it was first, and the column has its default if there is a row. -/
structure Copied (l : List (Nat × ConfigCall)) (mem : β) (col : Option β) : Prop where
  given : (∃ c ∈ l, sets c.2 = true) → col = some mem
  other : (∀ c ∈ l, sets c.2 = false) → mem = initial ∧ col = if l = [] then none else some dflt

variable {sets initial dflt} {l : List (Nat × ConfigCall)} {c : Nat × ConfigCall} {mem : β}
  {col : Option β}

theorem copied_nil : Copied sets initial dflt [] initial none where
  given h := by simp at h
  other _ := ⟨rfl, rfl⟩

/-- The call sets the setting and the column. -/
theorem copied_set (l : List (Nat × ConfigCall)) (hc : sets c.2 = true) (v : β) :
    Copied sets initial dflt (l ++ [c]) v (some v) where
  given _ := rfl
  other h := by
    have hf := h c (List.mem_append_right _ List.mem_cons_self)
    rw [hc] at hf
    cases hf

/-- The call makes the row where there is none. -/
theorem Copied.keep (h : Copied sets initial dflt l mem col) (hc : sets c.2 = false) :
    Copied sets initial dflt (l ++ [c]) mem (some (col.getD dflt)) where
  given hex := by
    obtain ⟨d, hd, hset⟩ := hex
    rcases List.mem_append.1 hd with hd | hd
    · rw [h.given ⟨d, hd, hset⟩, Option.getD_some]
    · rw [List.mem_singleton.1 hd, hc] at hset
      cases hset
  other hall := by
    obtain ⟨hmem, hcol⟩ := h.other fun d hd => hall d (List.mem_append_left _ hd)
    have hne : l ++ [c] ≠ [] := by simp
    refine ⟨hmem, ?_⟩
    rw [if_neg hne, hcol]
    split <;> rfl

theorem Copied.isSome (h : Copied sets initial dflt l mem col) (hl : l ≠ []) :
    col.isSome = true := by
  by_cases hex : ∃ c ∈ l, sets c.2 = true
  · rw [h.given hex, Option.isSome_some]
  · rw [(h.other fun c hc => by simpa using fun hset => hex ⟨c, hc, hset⟩).2, if_neg hl,
      Option.isSome_some]

/-- **The column gives the setting back** when it has been set, while there is no row, or where
the two defaults are one. -/
theorem Copied.getD_iff (h : Copied sets initial dflt l mem col) :
    col.getD initial = mem ↔ l = [] ∨ (∃ c ∈ l, sets c.2 = true) ∨ initial = dflt := by
  by_cases hex : ∃ c ∈ l, sets c.2 = true
  · rw [h.given hex, Option.getD_some]
    exact iff_of_true rfl (.inr (.inl hex))
  · obtain ⟨rfl, hcol⟩ := h.other fun c hc => by simpa using fun hset => hex ⟨c, hc, hset⟩
    rw [hcol]
    by_cases hl : l = []
    · exact iff_of_true (by rw [if_pos hl, Option.getD_none]) (.inl hl)
    · rw [if_neg hl, Option.getD_some]
      constructor
      · intro h
        exact .inr (.inr h.symm)
      · rintro (h | h | h)
        · exact absurd h hl
        · exact absurd h hex
        · exact h.symm

end

/-! ## Every run of a guild's setters -/

namespace ConfigCall

def setsAutoPlay : ConfigCall → Bool
  | setAutoPlay _ => true
  | _ => false

def setsMaxHistorySize : ConfigCall → Bool
  | setMaxHistorySize _ => true
  | _ => false

def setsLoopMode : ConfigCall → Bool
  | setLoopMode _ => true
  | _ => false

/-- The history size is one that the command allows. -/
def InRange : ConfigCall → Prop
  | setMaxHistorySize siz => siz ≤ 10000
  | _ => True

end ConfigCall

/-- The player and the row of a guild after the calls `l`. -/
structure Stored (l : List (Nat × ConfigCall)) (v : GuildPlayer × Option ConfigRow) : Prop where
  row : v.2 = none ↔ l = []
  autoPlay : Copied ConfigCall.setsAutoPlay true false l v.1.autoPlay
    (v.2.bind (·.autoplayState))
  maxHistorySize : Copied ConfigCall.setsMaxHistorySize 1000 0 l (v.1.maxHistorySize : Int)
    (v.2.bind (·.autoplayThreshold))
  loopMode : Copied ConfigCall.setsLoopMode 0 0 l (stringifyLoopMode v.1.loopMode)
    (v.2.bind (·.loopMode))
  size : v.1.maxHistorySize ≤ 10000
  checked : ∀ row ∈ v.2, row.Checked

section
variable {l : List (Nat × ConfigCall)} {v v' : GuildPlayer × Option ConfigRow} {guildId : Nat}

theorem stored_nil : Stored [] (({ guildId } : GuildPlayer), none) where
  row := iff_of_true rfl rfl
  autoPlay := copied_nil
  maxHistorySize := copied_nil
  loopMode := copied_nil
  size := show 1000 ≤ 10000 by decide
  checked row h := by cases h

theorem stringifyLoopMode_bounds (m : LoopMode) :
    0 ≤ stringifyLoopMode m ∧ stringifyLoopMode m ≤ 10 := by
  cases m <;> decide

theorem parse_stringifyLoopMode (m : LoopMode) : parseLoopMode (stringifyLoopMode m) = m := by
  cases m <;> rfl

/-- The column of the row that an update starts from. -/
theorem column_getD {β : Type} {col : ConfigRow → Option β} {dflt : β} {row : Option ConfigRow}
    (hdflt : col {} = some dflt) (hrow : row ≠ none → (row.bind col).isSome = true) :
    col (row.getD {}) = some ((row.bind col).getD dflt) := by
  cases row with
  | none => exact hdflt
  | some row =>
    obtain ⟨b, hb⟩ := Option.isSome_iff_exists.1 (hrow (by simp))
    rw [Option.bind_some] at hb
    rw [Option.getD_some, Option.bind_some, hb, Option.getD_some]

theorem Stored.checked_getD (h : Stored l v) : (v.2.getD {}).Checked := by
  cases hrow : v.2 with
  | none => decide
  | some row => exact h.checked row hrow

theorem updateRow_eq (hg : guildId ≠ 0) {u : ConfigUpdate} (hu : u.isEmpty = false)
    {row : Option ConfigRow} (hchecked : (u.assign (row.getD {})).Checked) :
    u.updateRow guildId row = some (u.assign (row.getD {})) := by
  rw [ConfigUpdate.updateRow, if_neg hg, hu, if_neg Bool.false_ne_true, ConfigUpdate.upsert]
  exact if_pos hchecked

/-- A setting that the call does not set, with the column that the update starts from. -/
theorem Stored.keep {β : Type} {sets : ConfigCall → Bool} {initial dflt mem : β}
    {col : ConfigRow → Option β} (h : Stored l v)
    (hcopied : Copied sets initial dflt l mem (v.2.bind col)) (hdflt : col {} = some dflt)
    {c : Nat × ConfigCall} (hc : sets c.2 = false) :
    Copied sets initial dflt (l ++ [c]) mem (col (v.2.getD {})) := by
  rw [column_getD hdflt fun hrow => hcopied.isSome fun hl => hrow (h.row.2 hl)]
  exact hcopied.keep hc

/-- **A call keeps the settings copied.** -/
theorem Stored.step (h : Stored l v) (hg : guildId ≠ 0) {c : ConfigCall} (hc : c.InRange) :
    ∃ v', guildStep v (guildId, c) = some v' ∧ Stored (l ++ [(guildId, c)]) v' := by
  obtain ⟨hsize, hmode⟩ := h.checked_getD
  refine ⟨_, rfl, ?_⟩
  cases c with
  | setAutoPlay state =>
    have hchecked : (({ autoplayState := some state } : ConfigUpdate).assign
        (v.2.getD {})).Checked := ⟨hsize, hmode⟩
    simp only [ConfigCall.apply, GuildPlayer.setAutoPlay, updateRow_eq hg rfl hchecked]
    exact {
      row := by simp
      autoPlay := copied_set l rfl state
      maxHistorySize := h.keep h.maxHistorySize rfl rfl
      loopMode := h.keep h.loopMode rfl rfl
      size := h.size
      checked row hrow := Option.some.inj hrow ▸ hchecked }
  | setMaxHistorySize siz =>
    have hsiz : toInt32 siz = siz := toInt32_eq (by simp only [ConfigCall.InRange] at hc; omega)
    have hchecked : (({ autoplayThreshold := some (toInt32 siz) } : ConfigUpdate).assign
        (v.2.getD {})).Checked := by
      refine ⟨fun n hn => ?_, hmode⟩
      obtain rfl : toInt32 siz = n := Option.some.inj hn
      simp only [ConfigCall.InRange] at hc
      omega
    have hset : Copied ConfigCall.setsMaxHistorySize 1000 0
        (l ++ [(guildId, .setMaxHistorySize siz)]) (siz : Int) (some (toInt32 siz)) := by
      rw [hsiz]
      exact copied_set l rfl _
    simp only [ConfigCall.apply, GuildPlayer.setMaxHistorySize, updateRow_eq hg rfl hchecked]
    exact {
      row := by simp
      autoPlay := h.keep h.autoPlay rfl rfl
      maxHistorySize := hset
      loopMode := h.keep h.loopMode rfl rfl
      size := hc
      checked row hrow := Option.some.inj hrow ▸ hchecked }
  | setLoopMode mode =>
    have hchecked : (({ loopMode := some (Stream.setLoopMode mode v.1).loopMode } :
        ConfigUpdate).assign (v.2.getD {})).Checked := by
      refine ⟨hsize, fun n hn => ?_⟩
      obtain rfl : stringifyLoopMode (Stream.setLoopMode mode v.1).loopMode = n :=
        Option.some.inj hn
      exact stringifyLoopMode_bounds _
    simp only [ConfigCall.apply, GuildPlayer.setLoopMode, updateRow_eq hg rfl hchecked]
    exact {
      row := by simp
      autoPlay := h.keep h.autoPlay rfl rfl
      maxHistorySize := h.keep h.maxHistorySize rfl rfl
      loopMode := copied_set l rfl _
      size := h.size
      checked row hrow := Option.some.inj hrow ▸ hchecked }

theorem stored_run (hg : guildId ≠ 0) (l : List (Nat × ConfigCall))
    (hl : ∀ c ∈ l, c.1 = guildId ∧ c.2.InRange) :
    ∃ v, run guildStep (({ guildId } : GuildPlayer), none) l = some v ∧ Stored l v := by
  induction l using List.reverseRecOn with
  | nil => exact ⟨_, rfl, stored_nil⟩
  | append_singleton l c ih =>
    obtain ⟨v, hrun, hv⟩ := ih fun d hd => hl d (List.mem_append_left _ hd)
    obtain ⟨rfl, hc⟩ := hl c (List.mem_append_right _ List.mem_cons_self)
    obtain ⟨v', hstep, hv'⟩ := hv.step hg hc
    refine ⟨v', ?_, hv'⟩
    rw [run_append, hrun, Option.bind_some]
    exact run_cons hstep []

/-! ## Loading -/

/-- What a new player has after loading: each column, or its own value without a row. -/
theorem Stored.loaded (h : Stored l v) (guildId : Nat) :
    let p := ({ guildId } : GuildPlayer).loadGuildPlayerConfig { savedConfig := savedConfig v.2 }
    p.autoPlay = (v.2.bind (·.autoplayState)).getD true ∧
      (p.maxHistorySize : Int) = (v.2.bind (·.autoplayThreshold)).getD 1000 ∧
      p.loopMode = parseLoopMode ((v.2.bind (·.loopMode)).getD 0) := by
  obtain ⟨p, row⟩ := v
  cases row with
  | none => exact ⟨rfl, rfl, rfl⟩
  | some row =>
    have hl : l ≠ [] := fun hl => by cases h.row.2 hl
    obtain ⟨b, hb⟩ := Option.isSome_iff_exists.1 (h.autoPlay.isSome hl)
    obtain ⟨n, hn⟩ := Option.isSome_iff_exists.1 (h.maxHistorySize.isSome hl)
    obtain ⟨m, hm⟩ := Option.isSome_iff_exists.1 (h.loopMode.isSome hl)
    obtain ⟨hlo, hhi⟩ := (h.checked row rfl).1 n hn
    have hsaved : savedConfig (some row) = some ⟨b, n, parseLoopMode m⟩ := by
      simp only [savedConfig, parseGuildPlayerConfig, hb, hn, hm]
      simp
    have hsize : ((UInt64.ofInt n).toNat : Int) = n := by
      rw [UInt64.ofInt, UInt64.toNat_ofNat']
      omega
    simp only [hb, hn, hm, hsaved, Option.getD_some]
    exact ⟨rfl, hsize, rfl⟩

/-- The settings of a player that its row keeps. -/
structure SameConfig (p q : GuildPlayer) : Prop where
  autoPlay : q.autoPlay = p.autoPlay
  maxHistorySize : q.maxHistorySize = p.maxHistorySize
  loopMode : q.loopMode = p.loopMode

/-- **The settings come back** when no call was made, or both settings with two defaults were
set. -/
theorem Stored.sameConfig_iff (h : Stored l v) :
    SameConfig v.1 (({ guildId } : GuildPlayer).loadGuildPlayerConfig
        { savedConfig := savedConfig v.2 }) ↔
      l = [] ∨ (∃ c ∈ l, c.2.setsAutoPlay = true) ∧ ∃ c ∈ l, c.2.setsMaxHistorySize = true := by
  obtain ⟨hauto, hsize, hloop⟩ := h.loaded guildId
  have hautoIff := h.autoPlay.getD_iff
  have hsizeIff := h.maxHistorySize.getD_iff
  have hloopEq := h.loopMode.getD_iff.2 (.inr (.inr rfl))
  rw [← hauto] at hautoIff
  rw [← hsize, Int.natCast_inj] at hsizeIff
  rw [hloopEq, parse_stringifyLoopMode] at hloop
  constructor
  · intro hsame
    rcases hautoIff.1 hsame.autoPlay with hl | hset | hdflt
    · exact .inl hl
    · rcases hsizeIff.1 hsame.maxHistorySize with hl | hset' | hdflt
      · exact .inl hl
      · exact .inr ⟨hset, hset'⟩
      · cases hdflt
    · cases hdflt
  · rintro (hl | ⟨hset, hset'⟩)
    · exact ⟨hautoIff.2 (.inl hl), hsizeIff.2 (.inl hl), hloop⟩
    · exact ⟨hautoIff.2 (.inr (.inl hset)), hsizeIff.2 (.inr (.inl hset')), hloop⟩

theorem exists_run_configStep :
    ∀ (l : List (Nat × ConfigCall)) (s : Configs), ∃ t, run configStep s l = some t
  | [], s => ⟨s, rfl⟩
  | c :: l, s => by
    obtain ⟨t, ht⟩ := exists_run_configStep l _
    exact ⟨t, (run_cons rfl l).trans ht⟩

theorem exists_setsAutoPlay {l : List (Nat × ConfigCall)} :
    (∃ c ∈ l.filter (·.1 = guildId), c.2.setsAutoPlay = true) ↔
      ∃ state, (guildId, .setAutoPlay state) ∈ l := by
  constructor
  · rintro ⟨⟨g, c⟩, hc, hset⟩
    obtain ⟨hmem, hg⟩ := List.mem_filter.1 hc
    obtain rfl : g = guildId := by simpa using hg
    cases c with
    | setAutoPlay state => exact ⟨state, hmem⟩
    | setMaxHistorySize siz => cases hset
    | setLoopMode mode => cases hset
  · rintro ⟨state, hmem⟩
    exact ⟨_, List.mem_filter.2 ⟨hmem, by simp⟩, rfl⟩

theorem exists_setsMaxHistorySize {l : List (Nat × ConfigCall)} :
    (∃ c ∈ l.filter (·.1 = guildId), c.2.setsMaxHistorySize = true) ↔
      ∃ siz, (guildId, .setMaxHistorySize siz) ∈ l := by
  constructor
  · rintro ⟨⟨g, c⟩, hc, hset⟩
    obtain ⟨hmem, hg⟩ := List.mem_filter.1 hc
    obtain rfl : g = guildId := by simpa using hg
    cases c with
    | setAutoPlay state => cases hset
    | setMaxHistorySize siz => exact ⟨siz, hmem⟩
    | setLoopMode mode => cases hset
  · rintro ⟨siz, hmem⟩
    exact ⟨_, List.mem_filter.2 ⟨hmem, by simp⟩, rfl⟩

/-- **A guild's configuration survives a restart exactly when none of the three was ever set, or
both the autoplay state and the history size were**, whatever the calls for other guilds are. -/
theorem config_survives_iff (hg : guildId ≠ 0) {l : List (Nat × ConfigCall)}
    (hl : ∀ c ∈ l, c.2.InRange) :
    ∃ s, run configStep {} l = some s ∧
      (SameConfig (s.players guildId) (s.restarted guildId) ↔
        (∀ c, (guildId, c) ∉ l) ∨
          (∃ state, (guildId, .setAutoPlay state) ∈ l) ∧
            ∃ siz, (guildId, .setMaxHistorySize siz) ∈ l) := by
  obtain ⟨s, hs⟩ := exists_run_configStep l {}
  have hview := configStep_clients.run_view guildId trivial hs
  obtain ⟨v, hrun, hstored⟩ := stored_run hg (l.filter (·.1 = guildId)) fun c hc => by
    obtain ⟨hc, hguild⟩ := List.mem_filter.1 hc
    exact ⟨by simpa using hguild, hl c hc⟩
  obtain rfl : s.view guildId = v := Option.some.inj (hview.symm.trans hrun)
  have hrestarted : s.restarted guildId = ({ guildId } : GuildPlayer).loadGuildPlayerConfig
      { savedConfig := savedConfig (s.view guildId).2 } := by
    rw [Configs.restarted, getGuildPlayerConfig, if_neg hg]
    rfl
  have hnone : l.filter (·.1 = guildId) = [] ↔ ∀ c, (guildId, c) ∉ l := by
    rw [List.filter_eq_nil_iff]
    constructor
    · intro h c hc
      exact h _ hc (by simp)
    · rintro h ⟨g, c⟩ hc hguild
      obtain rfl : g = guildId := by simpa using hguild
      exact h c hc
  refine ⟨s, hs, ?_⟩
  rw [hrestarted, ← hnone, ← exists_setsAutoPlay, ← exists_setsMaxHistorySize]
  exact hstored.sameConfig_iff

theorem config_survives_iff_bothSet :
    ∃ s, run configStep {} [(1, .setAutoPlay false), (2, .setLoopMode 1),
        (1, .setMaxHistorySize 5)] = some s ∧
      SameConfig (s.players 1) (s.restarted 1) := by
  have hl : ∀ c ∈ [(1, ConfigCall.setAutoPlay false), (2, .setLoopMode 1),
      (1, .setMaxHistorySize 5)], c.2.InRange := by
    simp [ConfigCall.InRange]
  obtain ⟨s, hs, hiff⟩ := @config_survives_iff 1 (by decide) _ hl
  exact ⟨s, hs, hiff.2 (.inr ⟨⟨false, by simp⟩, ⟨5, by simp⟩⟩)⟩

/-- The loop mode alone is set: the new player has autoplay off. -/
theorem autoplay_off_after_loopMode : ¬ ∀ (guildId : Nat) (l : List (Nat × ConfigCall)),
    guildId ≠ 0 → (∀ c ∈ l, c.2.InRange) → ∀ s, run configStep {} l = some s →
      SameConfig (s.players guildId) (s.restarted guildId) := by
  intro h
  have hl : ∀ c ∈ [(1, ConfigCall.setLoopMode 1)], c.2.InRange := by simp [ConfigCall.InRange]
  have hsame := h 1 [(1, .setLoopMode 1)] (by decide) hl _ rfl
  have hauto := hsame.autoPlay
  revert hauto
  decide

end

end Musicat.Player
