import Musicat.Child.Command

/-!
# The effect chain in the options

A command names each effect in an option of its own, which is added to
`helper_chain` between two `@`; `parse_helper_chain_option` takes them apart
again. `EHL_ALL_EXCLUSIVE` is defined, so every effect is an entry of the chain.
`first_chain` is compared with the index of the `@` that ends an effect, and
that is never 0.
-/

namespace Musicat.Audio

open Child

def atSign : UInt8 := 64
def bang : UInt8 := 33

/-- `helper_chain_option_t`. -/
structure HelperChainOption where
  rawArgs : Bytes
  debug : Bool := false
  parsed : Bool := false
  firstChain : Bool := false
  finalChain : Bool := false
  deriving DecidableEq, Repr

/-- What the loop keeps, with the chain so far; `start_d` is 0 between two effects. -/
structure ChainParse where
  startD : Nat := 0
  isExclusive : Bool := false
  helperChain : List HelperChainOption := []
  deriving DecidableEq, Repr

section
variable (options : CommandOptions)

/-- `co_maxi`, the last index. -/
def coMaxi : Nat := options.helperChain.length - 1

/-- The loop at the byte `c` of index `i`. -/
def chainStep (i : Nat) (c : UInt8) (s : ChainParse) : ChainParse :=
  if s.startD ≠ 0 ∧ s.startD = i ∧ c = bang then
    { s with startD := s.startD + 1, isExclusive := true }
  else if c ≠ atSign then s
  else if s.startD = 0 then { s with startD := i + 1 }
  else
    let res : Int := (i : Int) - s.startD
    if res ≤ 0 then { s with startD := 0 }
    else
      let rarg := (options.helperChain.drop s.startD).take res.toNat
      { startD := 0, isExclusive := false,
        helperChain := s.helperChain ++
          [{ rawArgs := rarg, debug := options.debug, parsed := false, firstChain := i == 0,
             finalChain := coMaxi options == i }] }

/-- The loop from the index `i` on. -/
def chainLoop : Nat → Bytes → ChainParse → ChainParse
  | _, [], s => s
  | i, c :: rest, s => chainLoop (i + 1) rest (chainStep options i c s)

/-- `parse_helper_chain_option`: the `helper_chain` of the processor options. -/
def parseHelperChainOption : List HelperChainOption :=
  (chainLoop options 0 options.helperChain {}).helperChain

end

/-- The options that a command of these effects gives. -/
def withEffects (options : CommandOptions) (effects : List Bytes) : Option CommandOptions :=
  effects.foldlM (fun o effect => assignCommandOptionKeyValue o keyHelperChain effect) options

/-- The chain of the effects, with the first and the last of them marked. -/
def markedChain (debug : Bool) (effects : List Bytes) : List HelperChainOption :=
  effects.mapIdx fun i effect =>
    { rawArgs := effect, debug, firstChain := i == 0, finalChain := i + 1 == effects.length }

/-- An effect that can be told from what is around it. -/
structure PlainEffect (effect : Bytes) : Prop where
  ne_nil : effect ≠ []
  no_at : atSign ∉ effect
  no_bang : effect.head? ≠ some bang

/-! ## The text of a chain -/

/-- The effects between their `@`. -/
def chainText (effects : List Bytes) : Bytes :=
  effects.flatMap fun effect => atSign :: effect ++ [atSign]

theorem withEffects_eq (options : CommandOptions) (effects : List Bytes) :
    withEffects options effects =
      some { options with helperChain := options.helperChain ++ chainText effects } := by
  induction effects generalizing options with
  | nil => simp [withEffects, chainText]
  | cons effect effects ih =>
    have hassign : assignCommandOptionKeyValue options keyHelperChain effect =
        some { options with
          helperChain := options.helperChain ++ bytes "@" ++ effect ++ bytes "@" } := rfl
    have hfirst : withEffects options (effect :: effects) =
        withEffects { options with
          helperChain := options.helperChain ++ bytes "@" ++ effect ++ bytes "@" } effects := by
      rw [withEffects, List.foldlM_cons, hassign]
      rfl
    have hat : bytes "@" = [atSign] := by decide
    rw [hfirst, ih, hat]
    simp [chainText]

/-! ## Reading the text -/

section
variable {options : CommandOptions} {s : ChainParse} {text rest effect : Bytes} {i : Nat}

theorem chainLoop_append (i : Nat) (text rest : Bytes) (s : ChainParse) :
    chainLoop options i (text ++ rest) s =
      chainLoop options (i + text.length) rest (chainLoop options i text s) := by
  induction text generalizing i s with
  | nil => rfl
  | cons c text ih =>
    rw [List.cons_append, chainLoop, ih, chainLoop, List.length_cons, Nat.add_assoc,
      Nat.add_comm 1]

/-- The bytes of an effect are passed over. -/
theorem chainLoop_of_no_at (hat : atSign ∉ text) (hi : s.startD ≤ i)
    (hbang : s.startD = i → text.head? ≠ some bang) : chainLoop options i text s = s := by
  induction text generalizing i with
  | nil => rfl
  | cons c text ih =>
    have hc : c ≠ atSign := fun h => hat (h ▸ List.mem_cons_self)
    have hrest : atSign ∉ text := fun h => hat (List.mem_cons_of_mem c h)
    have hstart : ¬ (s.startD ≠ 0 ∧ s.startD = i ∧ c = bang) :=
      fun h => hbang h.2.1 (congrArg some h.2.2)
    rw [chainLoop, chainStep, if_neg hstart, if_pos hc]
    exact ih hrest (Nat.le_succ_of_le hi) fun h => absurd h (by omega)

/-- One effect with its `@`. -/
theorem chainLoop_effect (heffect : PlainEffect effect)
    (htext : (options.helperChain.drop (i + 1)).take effect.length = effect)
    (hs : s.startD = 0) (hexclusive : s.isExclusive = false) :
    chainLoop options i (atSign :: effect ++ [atSign]) s =
      { s with
        helperChain := s.helperChain ++
          [{ rawArgs := effect, debug := options.debug,
             finalChain := coMaxi options == i + 1 + effect.length }] } := by
  have hlength := List.length_pos_of_ne_nil heffect.ne_nil
  have hopen : chainStep options i atSign s = { s with startD := i + 1 } := by
    rw [chainStep, if_neg (fun h => h.1 hs), if_neg (not_not.2 rfl), if_pos hs]
  have hbody : chainLoop options (i + 1) effect { s with startD := i + 1 } =
      { s with startD := i + 1 } :=
    chainLoop_of_no_at heffect.no_at (Nat.le_refl _) fun _ => heffect.no_bang
  have hclose : i + 1 + effect.length - (i + 1) = effect.length := Nat.add_sub_cancel_left _ _
  have hres : ((i + 1 + effect.length : Nat) : Int) - (i + 1 : Nat) = effect.length := by omega
  have hstart : ¬ (i + 1 ≠ 0 ∧ i + 1 = i + 1 + effect.length ∧ atSign = bang) := by omega
  have hfirst : (i + 1 + effect.length == 0) = false := by
    rw [beq_eq_false_iff_ne]
    omega
  rw [List.cons_append, chainLoop, hopen, chainLoop_append, hbody, chainLoop, chainLoop, chainStep,
    if_neg hstart, if_neg (not_not.2 rfl), if_neg (Nat.succ_ne_zero i)]
  dsimp only
  rw [hres, if_neg (by omega), Int.toNat_natCast, htext, hfirst, ← hs, ← hexclusive]

end

/-- The chain with the last effect marked only. -/
def lastMarked (debug : Bool) (effects : List Bytes) : List HelperChainOption :=
  effects.mapIdx fun i effect =>
    { rawArgs := effect, debug, finalChain := i + 1 == effects.length }

section
variable {options : CommandOptions} {debug : Bool} {effect : Bytes} {effects : List Bytes}

theorem chainText_cons : chainText (effect :: effects) =
    (atSign :: effect ++ [atSign]) ++ chainText effects := rfl

theorem chainText_eq_nil : chainText effects = [] ↔ effects = [] := by
  cases effects with
  | nil => exact iff_of_true rfl rfl
  | cons effect effects => exact iff_of_false (by simp [chainText_cons]) (List.cons_ne_nil _ _)

theorem lastMarked_cons : lastMarked debug (effect :: effects) =
    { rawArgs := effect, debug, finalChain := effects.isEmpty } :: lastMarked debug effects := by
  have hlast : (0 + 1 == (effect :: effects).length) = effects.isEmpty := by
    cases effects <;> rfl
  rw [lastMarked, List.mapIdx_cons, hlast, lastMarked]
  congr 2
  funext i e
  simp

/-- The effects are pushed in order, and the `@` at the last index marks the last. -/
theorem chainLoop_effects (heffects : ∀ effect ∈ effects, PlainEffect effect) {front : Bytes}
    (htext : options.helperChain = front ++ chainText effects) (chain : List HelperChainOption) :
    chainLoop options front.length (chainText effects) { helperChain := chain } =
      { helperChain := chain ++ lastMarked options.debug effects } := by
  induction effects generalizing front chain with
  | nil => simp [chainText, chainLoop, lastMarked]
  | cons effect effects ih =>
    obtain ⟨heffect, hrest⟩ := List.forall_mem_cons.1 heffects
    have hdrop : (options.helperChain.drop (front.length + 1)).take effect.length = effect := by
      rw [htext, chainText_cons, List.drop_append, List.drop_of_length_le (Nat.le_succ _)]
      simp
    have hfinal : (coMaxi options == front.length + 1 + effect.length) = effects.isEmpty := by
      rw [coMaxi, htext, chainText_cons, Bool.eq_iff_iff, beq_iff_eq, List.isEmpty_iff,
        ← chainText_eq_nil, ← List.length_eq_zero_iff]
      simp only [List.length_append, List.length_cons, List.length_nil]
      omega
    have hfront : options.helperChain = (front ++ (atSign :: effect ++ [atSign])) ++
        chainText effects := by
      rw [htext, chainText_cons]
      simp only [List.append_assoc]
    have hnext := ih hrest hfront (chain ++ [{ rawArgs := effect, debug := options.debug,
                                               finalChain := effects.isEmpty }])
    rw [List.length_append] at hnext
    rw [chainText_cons, chainLoop_append, chainLoop_effect heffect hdrop rfl rfl, hfinal, hnext,
      lastMarked_cons, List.append_assoc, List.singleton_append]

/-- What is parsed of a command of effects. -/
theorem parseHelperChainOption_eq (heffects : ∀ effect ∈ effects, PlainEffect effect)
    (htext : options.helperChain = chainText effects) :
    parseHelperChainOption options = lastMarked options.debug effects := by
  have h : chainLoop options 0 (chainText effects) { helperChain := [] } =
      { helperChain := [] ++ lastMarked options.debug effects } :=
    @chainLoop_effects _ _ heffects [] htext []
  rw [parseHelperChainOption, htext]
  exact congrArg ChainParse.helperChain h

end

/-- **The effects of a command are parsed in order, and the last is marked as the last**; that the
first is marked as well is so for no effects only. -/
theorem effect_chain_marked_iff (options : CommandOptions) (effects : List Bytes)
    (hempty : options.helperChain = []) (heffects : ∀ effect ∈ effects, PlainEffect effect) :
    ∃ o, withEffects options effects = some o ∧
      (parseHelperChainOption o).map HelperChainOption.rawArgs = effects ∧
      (parseHelperChainOption o).map HelperChainOption.finalChain =
        (markedChain options.debug effects).map HelperChainOption.finalChain ∧
      (parseHelperChainOption o = markedChain options.debug effects ↔ effects = []) := by
  refine ⟨_, withEffects_eq options effects, ?_⟩
  have hparse : parseHelperChainOption
        { options with helperChain := options.helperChain ++ chainText effects } =
      lastMarked options.debug effects :=
    parseHelperChainOption_eq heffects (by simp [hempty])
  rw [hparse]
  refine ⟨?_, ?_, ?_⟩
  · apply List.ext_getElem?
    intro i
    simp [lastMarked, Function.comp_def]
  · apply List.ext_getElem?
    intro i
    simp [lastMarked, markedChain, Function.comp_def]
  · constructor
    · intro h
      cases effects with
      | nil => rfl
      | cons effect effects =>
        have hfirst := congrArg (fun l => l.head?.map HelperChainOption.firstChain) h
        rw [lastMarked, markedChain, List.mapIdx_cons, List.mapIdx_cons] at hfirst
        cases hfirst
    · rintro rfl
      rfl

theorem effect_chain_marked_two :
    ∃ o, withEffects createCommandOptions [bytes "volume=2", bytes "atempo=1!"] = some o ∧
      (parseHelperChainOption o).map HelperChainOption.rawArgs =
        [bytes "volume=2", bytes "atempo=1!"] ∧
      (parseHelperChainOption o).map HelperChainOption.finalChain = [false, true] := by
  obtain ⟨o, ho, hraw, hfinal, -⟩ := effect_chain_marked_iff createCommandOptions
    [bytes "volume=2", bytes "atempo=1!"] rfl (by
      simp only [List.forall_mem_cons]
      exact ⟨⟨by decide, by decide, by decide⟩, ⟨by decide, by decide, by decide⟩,
        List.forall_mem_nil _⟩)
  exact ⟨o, ho, hraw, hfinal⟩

/-- The only effect of a chain is not marked as the first. -/
theorem effect_chain_first_not_marked :
    ∃ o, withEffects createCommandOptions [bytes "volume=2"] = some o ∧
      parseHelperChainOption o = [{ rawArgs := bytes "volume=2", finalChain := true }] ∧
      parseHelperChainOption o ≠ markedChain false [bytes "volume=2"] := by
  refine ⟨_, withEffects_eq _ _, ?_, ?_⟩
  · decide
  · decide

end Musicat.Audio
