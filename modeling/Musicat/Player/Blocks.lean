import Musicat.Lib.Lists
import Musicat.Player.ShiftedIndex

/-!
# Blocks taken out of the queue and put into it

`/remove` takes out the entries from `track` on, as many as `amount` says or as
there are before `to`, and `remove_track` counts in `size_t`. Loading a playlist
to the top adds its tracks one by one from the last to the first; every one of
them moves the index of the playing track on by one, but the first one added to
an empty queue leaves it at zero, where that track now is.
-/

namespace Musicat.Player

open GuildPlayer Lib

/-! ## A block taken out -/

/-- The checks of `remove::slash_run`, made on what `get_queue` returns. -/
def RemoveAccepts (p : GuildPlayer) (fr toPos : Int64) : Prop :=
  1 ≤ fr.toInt ∧ fr.toInt.toNat + 1 ≤ p.resetShifted.1.queue.length ∧ (toPos = -1 ∨ fr ≤ toPos)

instance (p : GuildPlayer) (fr toPos : Int64) : Decidable (RemoveAccepts p fr toPos) :=
  inferInstanceAs (Decidable (_ ∧ _))

/-- `amount` as `remove::slash_run` corrects it. -/
def removeAmount (amount : Int64) : Int64 := if amount < 1 then 1 else amount

/-- How many tracks are asked for: those before `to`, when it is given and after `track`. -/
def askedLength (fr amount toPos : Int64) : Nat :=
  if toPos ≠ -1 ∧ fr < toPos then (toPos.toInt - fr.toInt).toNat
  else (removeAmount amount).toInt.toNat

/-- `remove_track`, with its arguments converted from `int64_t` to `size_t`. -/
def removeTrackInt (p : GuildPlayer) (fr amount toPos : Int64) : GuildPlayer × UInt64 :=
  p.removeTrack (UInt64.ofInt fr.toInt) (UInt64.ofInt amount.toInt) (UInt64.ofInt toPos.toInt)

/-- The queue has lost the `n` entries from `pos` on. -/
def BlockRemoved (p : GuildPlayer) (pos n : Nat) (removed : GuildPlayer × UInt64) : Prop :=
  let queue := p.resetShifted.1.queue
  removed.1 = { p.resetShifted.1 with queue := queue.take pos ++ queue.drop (pos + n) } ∧
    removed.2.toNat = n ∧ removed.1.queue[0]? = queue[0]?

section
variable {p : GuildPlayer}

theorem resetShifted_length (p : GuildPlayer) :
    p.resetShifted.1.queue.length = p.queue.length :=
  (resetShifted_spec p).2.1.length_eq

/-- The loop of `remove_track` erases a block. -/
theorem eraseFrom_eq (b amount : Nat) (queue : List MCTrack) :
    eraseFrom b amount queue = queue.take b ++ queue.drop (b + amount) := by
  induction amount generalizing queue with
  | zero => rw [eraseFrom, Nat.add_zero, List.take_append_drop]
  | succ amount ih =>
    rw [eraseFrom]
    split
    · have hdrop : (queue.eraseIdx b).drop (b + amount) = queue.drop (b + (amount + 1)) := by
        rw [← List.drop_drop, drop_eraseIdx_self, List.drop_drop]
        congr 1
        omega
      rw [ih, List.take_eraseIdx_eq_take_of_le queue b b (Nat.le_refl b), hdrop]
    · rename_i hend
      rw [List.take_of_length_le (Nat.le_of_not_lt hend), List.drop_eq_nil_of_le (by omega),
        List.append_nil]

theorem toNat_ofInt {n : Int} (h0 : 0 ≤ n) (h : n < 2 ^ 64) : (UInt64.ofInt n).toNat = n.toNat := by
  rw [UInt64.ofInt, UInt64.toNat_ofNat']
  omega

/-- What `remove_track` leaves of a queue that has an entry at `pos`. -/
theorem removeTrack_eq {pos amount toPos : UInt64} (hsize : p.queue.length < 2 ^ 64)
    (h0 : pos ≠ 0) (ha : ¬ (amount = 0 ∧ toPos = -1)) (hpos : pos.toNat < p.queue.length) :
    let asked := if toPos ≠ -1 ∧ pos < toPos then toPos - pos else amount
    BlockRemoved p pos.toNat (min asked.toNat (p.queue.length - pos.toNat))
      (p.removeTrack pos amount toPos) := by
  intro asked
  have hsiz : (UInt64.ofNat p.resetShifted.1.queue.length).toNat = p.queue.length := by
    rw [resetShifted_length, UInt64.toNat_ofNat', Nat.mod_eq_of_lt hsize]
  have hnext : (pos + 1).toNat = pos.toNat + 1 := by
    rw [UInt64.toNat_add, UInt64.toNat_one, Nat.mod_eq_of_lt (by omega)]
  have hle : pos ≤ UInt64.ofNat p.resetShifted.1.queue.length := by
    rw [UInt64.le_iff_toNat_le, hsiz]
    omega
  have hmax : (UInt64.ofNat p.resetShifted.1.queue.length - pos).toNat =
      p.queue.length - pos.toNat := by
    rw [UInt64.toNat_sub_of_le _ _ hle, hsiz]
  have hmin : (if UInt64.ofNat p.resetShifted.1.queue.length - pos < asked then
      UInt64.ofNat p.resetShifted.1.queue.length - pos else asked).toNat =
        min asked.toNat (p.queue.length - pos.toNat) := by
    split
    · rename_i hlt
      rw [UInt64.lt_iff_toNat_lt, hmax] at hlt
      rw [hmax]
      omega
    · rename_i hlt
      rw [UInt64.lt_iff_toNat_lt, hmax] at hlt
      omega
  have hnot : ¬ UInt64.ofNat p.resetShifted.1.queue.length < pos + 1 := by
    rw [UInt64.lt_iff_toNat_lt, hsiz, hnext]
    omega
  unfold GuildPlayer.removeTrack
  rw [if_neg (by simp only [h0, ha, or_self, not_false_eq_true])]
  dsimp only
  rw [if_neg hnot]
  refine ⟨?_, hmin, ?_⟩
  · rw [eraseFrom_eq, hmin]
  · have hpos' : 0 < pos.toNat := by
      rw [Nat.pos_iff_ne_zero]
      exact fun h => h0 (UInt64.toNat_inj.1 h)
    exact eraseFrom_head hpos'

theorem removeTrack_resetShifted {pos amount toPos : UInt64}
    (h : ¬ (pos = 0 ∨ amount = 0 ∧ toPos = -1)) :
    p.resetShifted.1.removeTrack pos amount toPos = p.removeTrack pos amount toPos := by
  unfold GuildPlayer.removeTrack
  rw [if_neg h, if_neg h, resetShifted_of_zero (resetShifted_spec p).1]

/-- No entry at `pos`: at most the index of the playing track is reset. -/
theorem removeTrack_outside {pos : UInt64} (amount toPos : UInt64)
    (hsize : p.queue.length < 2 ^ 64) (hpos : pos ≠ -1)
    (h : pos = 0 ∨ p.queue.length ≤ pos.toNat) :
    ((p.removeTrack pos amount toPos).1 = p ∨
      (p.removeTrack pos amount toPos).1 = p.resetShifted.1) ∧
      (p.removeTrack pos amount toPos).2 = 0 := by
  unfold GuildPlayer.removeTrack
  split
  · exact ⟨.inl rfl, rfl⟩
  · rename_i hargs
    have hlen : p.queue.length ≤ pos.toNat := h.resolve_left fun h0 => hargs (.inl h0)
    have hlast : pos.toNat ≠ 2 ^ 64 - 1 := fun hp => hpos (UInt64.toNat_inj.1 hp)
    have hnext : (pos + 1).toNat = pos.toNat + 1 := by
      have := pos.toNat_lt
      rw [UInt64.toNat_add, UInt64.toNat_one, Nat.mod_eq_of_lt (by omega)]
    have hend : UInt64.ofNat p.resetShifted.1.queue.length < pos + 1 := by
      rw [UInt64.lt_iff_toNat_lt, resetShifted_length, UInt64.toNat_ofNat',
        Nat.mod_eq_of_lt hsize, hnext]
      omega
    dsimp only
    rw [if_pos hend]
    exact ⟨.inr rfl, rfl⟩

/-- The arguments of an accepted command, once they are converted. -/
theorem converted_of_accepts {fr toPos : Int64} (amount : Int64) (h : RemoveAccepts p fr toPos) :
    (UInt64.ofInt fr.toInt).toNat = fr.toInt.toNat ∧ UInt64.ofInt fr.toInt ≠ 0 ∧
      UInt64.ofInt (removeAmount amount).toInt ≠ 0 ∧
      (if UInt64.ofInt toPos.toInt ≠ -1 ∧ UInt64.ofInt fr.toInt < UInt64.ofInt toPos.toInt then
        UInt64.ofInt toPos.toInt - UInt64.ofInt fr.toInt
      else UInt64.ofInt (removeAmount amount).toInt).toNat = askedLength fr amount toPos := by
  obtain ⟨hfr, -, hto⟩ := h
  have hlt (n : Int64) : n.toInt < 2 ^ 64 := n.toInt_lt.trans (by decide)
  have hpos : (UInt64.ofInt fr.toInt).toNat = fr.toInt.toNat := toNat_ofInt (by omega) (hlt fr)
  have hone : 1 ≤ (removeAmount amount).toInt := by
    unfold removeAmount
    split
    · decide
    · rename_i h
      rw [Int64.lt_iff_toInt_lt, Int.not_lt] at h
      exact h
  have hamount : (UInt64.ofInt (removeAmount amount).toInt).toNat =
      (removeAmount amount).toInt.toNat := toNat_ofInt (by omega) (hlt _)
  have hne {n : UInt64} (hn : 1 ≤ n.toNat) : n ≠ 0 := by
    rintro rfl
    exact absurd hn (by decide)
  refine ⟨hpos, hne (by omega), hne (by omega), ?_⟩
  unfold askedLength
  by_cases hgiven : toPos = -1
  · subst hgiven
    rw [if_neg (fun h => h.1 (by decide)), if_neg (fun h => h.1 rfl), hamount]
  · have hle : fr.toInt ≤ toPos.toInt := Int64.le_iff_toInt_le.1 (hto.resolve_left hgiven)
    have htoPos : (UInt64.ofInt toPos.toInt).toNat = toPos.toInt.toNat :=
      toNat_ofInt (by omega) (hlt toPos)
    have hsentinel : UInt64.ofInt toPos.toInt ≠ -1 := by
      intro h
      have := congrArg UInt64.toNat h
      have hmax : (-1 : UInt64).toNat = 2 ^ 64 - 1 := rfl
      have := toPos.toInt_lt
      omega
    by_cases hafter : fr < toPos
    · have hlt' : UInt64.ofInt fr.toInt < UInt64.ofInt toPos.toInt := by
        rw [Int64.lt_iff_toInt_lt] at hafter
        rw [UInt64.lt_iff_toNat_lt]
        omega
      rw [if_pos ⟨hsentinel, hlt'⟩, if_pos ⟨hgiven, hafter⟩,
        UInt64.toNat_sub_of_le _ _ (UInt64.le_of_lt hlt')]
      omega
    · have hnot : ¬ UInt64.ofInt fr.toInt < UInt64.ofInt toPos.toInt := by
        rw [Int64.lt_iff_toInt_lt] at hafter
        rw [UInt64.lt_iff_toNat_lt]
        omega
      rw [if_neg fun h => hnot h.2, if_neg fun h => hafter h.2, hamount]

/-- **`/remove` takes out the block asked for**, as far as the queue goes, and nothing where there
is no entry; a queue has no more entries than a `size_t` counts. -/
theorem remove_takes_block (p : GuildPlayer) (hsize : p.queue.length < 2 ^ 64) :
    (∀ fr amount toPos : Int64, RemoveAccepts p fr toPos →
      BlockRemoved p fr.toInt.toNat
        (min (askedLength fr amount toPos) (p.queue.length - fr.toInt.toNat))
        (removeTrackInt p fr (removeAmount amount) toPos) ∧
      (removeSlashRun p fr.toInt amount.toInt toPos.toInt).1 =
        (removeTrackInt p fr (removeAmount amount) toPos).1) ∧
      ∀ pos amount toPos : UInt64, pos ≠ -1 → pos = 0 ∨ p.queue.length ≤ pos.toNat →
        ((p.removeTrack pos amount toPos).1 = p ∨
          (p.removeTrack pos amount toPos).1 = p.resetShifted.1) ∧
          (p.removeTrack pos amount toPos).2 = 0 := by
  refine ⟨fun fr amount toPos h => ?_,
    fun pos amount toPos hpos h => removeTrack_outside amount toPos hsize hpos h⟩
  obtain ⟨hpos, h0, ha, hasked⟩ := converted_of_accepts amount h
  obtain ⟨hfr, hin, hto⟩ := h
  rw [resetShifted_length] at hin
  constructor
  · have hboth : ¬ (UInt64.ofInt (removeAmount amount).toInt = 0 ∧
        UInt64.ofInt toPos.toInt = -1) := fun h => ha h.1
    have hblock := removeTrack_eq hsize h0 hboth
      (show (UInt64.ofInt fr.toInt).toNat < p.queue.length by omega)
    dsimp only at hblock
    rwa [hasked, hpos] at hblock
  · have hclamp : (if amount.toInt < 1 then 1 else amount.toInt) =
        (removeAmount amount).toInt := by
      have hone : amount < 1 ↔ amount.toInt < 1 := Int64.lt_iff_toInt_lt
      unfold removeAmount
      by_cases h : amount.toInt < 1
      · rw [if_pos h, if_pos (hone.2 h)]
        rfl
      · rw [if_neg h, if_neg (mt hone.1 h)]
    have hto' : ¬ (toPos.toInt ≠ -1 ∧ toPos.toInt < fr.toInt) := by
      rintro ⟨hne, hlt⟩
      rcases hto with rfl | hle
      · exact hne rfl
      · exact absurd (Int64.le_iff_toInt_le.1 hle) (Int.not_le.2 hlt)
    unfold removeSlashRun
    dsimp only
    rw [if_neg (by rw [resetShifted_length]; omega), if_neg hto', hclamp,
      removeTrack_resetShifted (by rintro (h | ⟨h, -⟩); exacts [h0 h, ha h])]
    split <;> rfl

theorem remove_takes_block_three :
    BlockRemoved threeTracks 1 (min (askedLength 1 7 (-1)) (3 - 1))
        (removeTrackInt threeTracks 1 (removeAmount 7) (-1)) ∧
      (threeTracks.removeTrack 5 1 1).2 = 0 :=
  ⟨((remove_takes_block threeTracks (by decide)).1 1 7 (-1) (by decide)).1,
    ((remove_takes_block threeTracks (by decide)).2 5 1 1 (by decide) (by decide)).2⟩

end

/-! ## A playlist loaded -/

/-- `to_iter` of `playlist::load::slash_run`; `push_front` turns the list around. -/
def toIter (addToTop : Bool) (tracks : List MCTrack) : List MCTrack :=
  if addToTop then tracks.foldl (fun it d => d :: it) [] else tracks

/-- The tracks as they are added, with the user of the command. -/
def withUser (userId : Nat) (t : MCTrack) : MCTrack := { t with userId }

/-- The loop of `playlist::load::slash_run` that adds the tracks. -/
def loadPlaylist (argTop : Int) (userId : Nat) (fetched : MCTrack → Option (Option String))
    (tracks : List MCTrack) (p : GuildPlayer) : GuildPlayer :=
  let addToTop := argTop ≠ 0
  (toIter addToTop tracks).foldl
    (fun p t => p.addTrack (withUser userId t) addToTop 0 (fetched t)) p

/-- What loading `tracks` to the top of `p` should leave after `reset_shifted`. -/
def TopLoaded (p : GuildPlayer) (tracks : List MCTrack) (loaded : GuildPlayer) : Prop :=
  loaded.resetShifted.1.queue =
    p.queue[p.shiftedTrack]?.toList ++ tracks ++ p.queue.eraseIdx p.shiftedTrack

section
variable {p : GuildPlayer} {userId : Nat} {fetched : MCTrack → Option (Option String)}

theorem toIter_top (tracks : List MCTrack) : toIter true tracks = tracks.reverse := by
  rw [toIter, if_pos rfl, List.foldl_flip_cons_eq_append, List.append_nil, List.map_id']

/-- A track that needs no fetching, added to the top. -/
theorem addTrack_top {t : MCTrack} (ht : t.infoRaw ≠ none) (p : GuildPlayer)
    (fetched : Option (Option String)) :
    p.addTrack (withUser userId t) true 0 fetched =
      { p with
        queue := withUser userId t :: p.queue
        shiftedTrack :=
          if p.shiftedTrack < p.queue.length then p.shiftedTrack + 1 else p.shiftedTrack } := by
  have hadd : trackToAdd (withUser userId t) fetched = some (withUser userId t) := by
    rw [trackToAdd, if_neg]
    rw [Option.isNone_iff_eq_none]
    exact ht
  rw [GuildPlayer.addTrack, hadd]
  simp

/-- Tracks added to the top of a queue that has an entry at the index. -/
theorem foldl_addTrack {it : List MCTrack} (hraw : ∀ t ∈ it, t.infoRaw ≠ none)
    (hshifted : p.shiftedTrack < p.queue.length) :
    it.foldl (fun p t => p.addTrack (withUser userId t) true 0 (fetched t)) p =
      { p with
        queue := (it.map (withUser userId)).reverse ++ p.queue
        shiftedTrack := p.shiftedTrack + it.length } := by
  induction it generalizing p with
  | nil => rfl
  | cons t it ih =>
    rw [List.foldl_cons, addTrack_top (hraw t List.mem_cons_self), if_pos hshifted,
      ih (fun u hu => hraw u (List.mem_cons_of_mem t hu)) (Nat.succ_lt_succ hshifted)]
    simp only [List.map_cons, List.reverse_cons, List.append_assoc, List.singleton_append,
      List.length_cons, Nat.add_assoc, Nat.add_comm 1]

/-- Behind a block that was added in front, the index is where it was. -/
theorem resetShifted_behind {added queue : List MCTrack} {s : Nat} (hs : s < queue.length) :
    ({ p with queue := added ++ queue, shiftedTrack := s + added.length } :
      GuildPlayer).resetShifted.1.queue = queue[s] :: (added ++ queue.eraseIdx s) := by
  have hplaying : Playing { p with queue := added ++ queue, shiftedTrack := s + added.length }
      queue[s] := by
    rw [Playing, List.getElem?_append_right (Nat.le_add_left _ _), Nat.add_sub_cancel,
      List.getElem?_eq_getElem hs]
  rw [hplaying.resetShifted]
  dsimp only
  rw [List.eraseIdx_append_of_length_le (Nat.le_add_left _ _), Nat.add_sub_cancel]

theorem topLoaded_nonempty {tracks : List MCTrack} (hraw : ∀ t ∈ tracks, t.infoRaw ≠ none)
    {argTop : Int} (htop : argTop ≠ 0) (hshifted : p.shiftedTrack < p.queue.length) :
    TopLoaded p (tracks.map (withUser userId)) (loadPlaylist argTop userId fetched tracks p) := by
  have hloaded : loadPlaylist argTop userId fetched tracks p =
      { p with
        queue := tracks.map (withUser userId) ++ p.queue
        shiftedTrack := p.shiftedTrack + (tracks.map (withUser userId)).length } := by
    unfold loadPlaylist
    dsimp only
    rw [decide_eq_true htop, toIter_top,
      foldl_addTrack (fun t ht => hraw t (List.mem_reverse.1 ht)) hshifted,
      List.map_reverse, List.reverse_reverse, List.length_reverse, List.length_map]
  rw [TopLoaded, hloaded, resetShifted_behind hshifted, List.getElem?_eq_getElem hshifted]
  rfl

/-- What is loaded into an empty queue begins with the track that was added first, the last one. -/
theorem loaded_empty {tracks : List MCTrack} {last : MCTrack}
    (hraw : ∀ t ∈ tracks ++ [last], t.infoRaw ≠ none) {argTop : Int} (htop : argTop ≠ 0)
    (hq : p.queue = []) (hshifted : p.shiftedTrack = 0) :
    (loadPlaylist argTop userId fetched (tracks ++ [last]) p).resetShifted.1.queue =
      withUser userId last :: tracks.map (withUser userId) := by
  have hfirst : p.addTrack (withUser userId last) true 0 (fetched last) =
      { p with queue := [withUser userId last], shiftedTrack := 0 } := by
    rw [addTrack_top (hraw last (List.mem_append_right _ List.mem_cons_self)), hq, hshifted]
    rfl
  unfold loadPlaylist
  dsimp only
  rw [decide_eq_true htop, toIter_top, List.reverse_append, List.reverse_singleton,
    List.singleton_append, List.foldl_cons, hfirst,
    foldl_addTrack
      (fun t ht => hraw t (List.mem_append_left _ (List.mem_reverse.1 ht))) Nat.zero_lt_one,
    List.map_reverse, List.reverse_reverse]
  have hlast : 0 < [withUser userId last].length := Nat.zero_lt_one
  have hlength : tracks.reverse.length = (tracks.map (withUser userId)).length := by
    rw [List.length_reverse, List.length_map]
  rw [hlength, resetShifted_behind hlast]
  simp

end

/-- **A playlist loaded to the top keeps its order** exactly when the queue was not empty or the
tracks are all one. -/
theorem load_top_keeps_order_iff (p : GuildPlayer) (hp : Indexed p) (argTop : Int)
    (htop : argTop ≠ 0) (userId : Nat) (fetched : MCTrack → Option (Option String))
    (tracks : List MCTrack) (hraw : ∀ t ∈ tracks, t.infoRaw ≠ none) :
    TopLoaded p (tracks.map (withUser userId)) (loadPlaylist argTop userId fetched tracks p) ↔
      p.queue ≠ [] ∨ ∀ t ∈ tracks, ∀ u ∈ tracks, withUser userId t = withUser userId u := by
  rcases hp with hshifted | ⟨hq, hshifted⟩
  · have hne : p.queue ≠ [] := List.ne_nil_of_length_pos (Nat.zero_lt_of_lt hshifted)
    exact iff_of_true (topLoaded_nonempty hraw htop hshifted) (.inl hne)
  · rcases List.eq_nil_or_concat tracks with rfl | ⟨init, last, rfl⟩
    · refine iff_of_true ?_ (.inr fun t ht => by cases ht)
      simp [TopLoaded, loadPlaylist, toIter, hq, hshifted, resetShifted_of_zero]
    · rw [List.concat_eq_append] at hraw ⊢
      rw [TopLoaded, loaded_empty hraw htop hq hshifted, hq]
      simp only [List.getElem?_nil, Option.toList_none, List.nil_append, List.eraseIdx_nil,
        List.append_nil, List.map_append, List.map_singleton, ne_eq, not_true_eq_false, false_or]
      rw [eq_comm, concat_eq_cons_iff, List.forall_mem_map]
      constructor
      · intro h
        have hall : ∀ t ∈ init ++ [last], withUser userId t = withUser userId last := by
          intro t ht
          rcases List.mem_append.1 ht with ht | ht
          · exact h t ht
          · rw [List.mem_singleton.1 ht]
        exact fun t ht u hu => (hall t ht).trans (hall u hu).symm
      · intro h t ht
        exact h t (List.mem_append_left _ ht) last (List.mem_append_right _ List.mem_cons_self)

/-- Two tracks with their info. -/
def twoToLoad : List MCTrack :=
  [{ filename := "a", infoRaw := some "\"a\"" }, { filename := "b", infoRaw := some "\"b\"" }]

theorem load_top_keeps_order_three :
    TopLoaded threeTracks (twoToLoad.map (withUser 7))
        (loadPlaylist 1 7 (fun _ => none) twoToLoad threeTracks) ↔
      threeTracks.queue ≠ [] ∨
        ∀ t ∈ twoToLoad, ∀ u ∈ twoToLoad, withUser 7 t = withUser 7 u :=
  load_top_keeps_order_iff threeTracks (by decide) 1 (by decide) 7 _ twoToLoad (by decide)

/-- Two tracks loaded to the top of an empty queue come out the other way round. -/
theorem load_top_turns_around :
    (loadPlaylist 1 7 (fun _ => none) twoToLoad {}).resetShifted.1.queue.map (·.filename) =
        ["b", "a"] ∧
      ¬ TopLoaded {} (twoToLoad.map (withUser 7))
        (loadPlaylist 1 7 (fun _ => none) twoToLoad {}) := by
  refine ⟨by decide, fun h => ?_⟩
  have hnames := congrArg (List.map (·.filename)) h
  revert hnames
  decide

end Musicat.Player
