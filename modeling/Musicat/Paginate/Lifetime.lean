import Musicat.Lib.Run
import Musicat.Paginate.Pages

/-!
# The lifetime of pages

Presses, the confirmations of edits and `gc` have the addresses of objects, and
nothing keeps an object in the map for them. As long as an entry is only erased
when nothing has its address, and not between the two statements that note its
storage data and set it, no object is touched after its entry has been erased,
and every entry of the storage has its page (`pages_kept`). An edit and its
confirmation that erase their own entry never meet this: they unlock the
`s_mutex` of an object that is gone.
-/

namespace Musicat.Paginate

open Lib

/-! ## What a step touches -/

/-- The thread will touch its object. -/
def Thread.uses (th : Thread) : Bool :=
  match th.pc with
  | .found param => readsEntry param || param = "h"
  | _ => true

/-- What the next step of the thread reads, writes, locks or unlocks. -/
def Thread.touches (th : Thread) : Option Nat :=
  match th.pc with
  | .found param => if readsEntry param then some th.obj else none
  | _ => some th.obj

namespace PageState

/-- The objects that a step reads, writes, locks or unlocks. -/
def touches (s : PageState) : PageAction → List Nat
  | .assign j => ((s.creations[j]?).bind fun c => s.lookup c.message.id).toList
  | .delete id => (s.lookup id).toList
  | .turn i _ _ => ((s.threads[i]?).bind Thread.touches).toList
  | _ => []

/-! ## What a step erases -/

/-- The id of which a job erases the entry. -/
def jobErases (s : PageState) (o : Nat) (permitted : Bool) (t : Int) : Job → Option Nat
  | .edit c =>
    if (s.objects o).current = c || permitted then none
    else ((s.objects o).message.filter (·.old t)).map Message.id
  | .editCb newCurrent cb =>
    if newCurrent = npos && cb ≠ .error then (s.objects o).message.map Message.id else none

/-- The id of which a step erases the entry, and the threads besides the `gc` that is at it. -/
def erases (s : PageState) : PageAction → Option (Nat × List Thread)
  | .delete id => some (id, s.threads)
  | .turn i permitted t =>
    (s.threads[i]?).bind fun th =>
      match th.pc with
      | .locked job => (s.jobErases th.obj permitted t job).map (·, s.threads)
      | .sweeping id clear t =>
        if clear || (s.objects th.obj).message.any (·.old t) then
          some (id, s.threads.eraseIdx i)
        else none
      | _ => none
  | _ => none

/-- The entry of `id` is not in use: none of the threads will touch its object, no edit of it is
still to be confirmed, and its storage data is not about to be set. -/
def Unused (s : PageState) (id : Nat) (threads : List Thread) : Prop :=
  ∀ o ∈ s.lookup id, (∀ th ∈ threads, th.uses → th.obj ≠ o) ∧ (∀ p ∈ s.callbacks, p.1 ≠ o) ∧
    ∀ c ∈ s.creations, c.message.id = id → c.stage = 5 → c.hasV = false

instance (s : PageState) (id : Nat) (threads : List Thread) : Decidable (s.Unused id threads) :=
  inferInstanceAs (Decidable (∀ o ∈ s.lookup id, _))

end PageState

open PageState

/-- A step erases only an entry that is not in use. -/
def ErasesUnused (s : PageState) (a : PageAction) : Prop := ∀ e ∈ s.erases a, s.Unused e.1 e.2

instance (s : PageState) (a : PageAction) : Decidable (ErasesUnused s a) :=
  inferInstanceAs (Decidable (∀ e ∈ s.erases a, _))

/-- The entry of `id` is there, and says that it has storage data. -/
def PageState.HasData (s : PageState) (id : Nat) : Prop :=
  ∃ o, s.lookup id = some o ∧ (s.objects o).hasStorageData = true

/-- The storage data of a creation is not set yet; when it is about to be, it has been noted. -/
structure PageState.CreationInv (s : PageState) (c : Creation) : Prop where
  stage : c.stage ≤ 5
  paginated : c.message.id ∈ s.paginated
  storage : c.message.id ∉ s.storage
  noted : c.stage = 5 → c.hasV = true → s.HasData c.message.id

/-- **What has an address has that of an entry**, and what is stored is noted in its entry. -/
structure PageInv (s : PageState) : Prop where
  fresh : ∀ id o, s.lookup id = some o → o < s.fresh
  inj : ∀ id id' o, s.lookup id = some o → s.lookup id' = some o → id = id'
  threads : ∀ th ∈ s.threads, th.uses → s.Live th.obj
  callbacks : ∀ p ∈ s.callbacks, s.Live p.1
  storage : ∀ id ∈ s.storage, s.HasData id
  paginated : ∀ id ∈ s.storage, id ∈ s.paginated
  creations : ∀ c ∈ s.creations, s.CreationInv c
  once : (s.creations.map (·.message.id)).Nodup

/-! ## The parts of a step -/

section
variable {s s' : PageState} {id o : Nat} {th : Thread} {c : Creation}

theorem lookup_erase_of_ne {id' : Nat} (h : id' ≠ id) (data : Bool) :
    (s.erase id data).lookup id' = s.lookup id' :=
  Finmap.lookup_erase_ne h

/-- An object is live after an entry has been erased that was not its own. -/
theorem PageState.Live.erase (h : s.Live o) (hne : ∀ o' ∈ s.lookup id, o ≠ o') (data : Bool) :
    (s.erase id data).Live o := by
  obtain ⟨id', hid'⟩ := h
  refine ⟨id', (lookup_erase_of_ne ?_ data).trans hid'⟩
  rintro rfl
  exact hne o hid' rfl

theorem PageInv.withThreads (hi : PageInv s) {threads : List Thread}
    (h : ∀ th ∈ threads, th.uses → s.Live th.obj) : PageInv { s with threads } :=
  { hi with
    threads := h
    creations := fun c hc => { hi.creations c hc with } }

theorem PageInv.without (hi : PageInv s) (i : Nat) : PageInv (s.without i) :=
  hi.withThreads fun th hth => hi.threads th (List.mem_of_mem_eraseIdx hth)

theorem PageInv.spawn (hi : PageInv s) (h : th.uses → s.Live th.obj) : PageInv (s.spawn th) := by
  refine hi.withThreads fun th' hth' => ?_
  rcases List.mem_append.1 hth' with hth' | hth'
  · exact hi.threads th' hth'
  · rw [List.mem_singleton.1 hth']
    exact h

theorem PageInv.setLock (hi : PageInv s) (o : Nat) (b : Bool) : PageInv (s.setLock o b) :=
  { hi with creations := fun c hc => { hi.creations c hc with } }

/-- An entry is erased that is not in use. -/
theorem PageInv.erase (hi : PageInv s) {data : Bool}
    (hdata : ∀ o ∈ s.lookup id, data = false → (s.objects o).hasStorageData = false)
    (hunused : s.Unused id s.threads) : PageInv (s.erase id data) := by
  have hkept {id' o' : Nat} (h : (s.erase id data).lookup id' = some o') :
      s.lookup id' = some o' := by
    by_cases hid : id' = id
    · subst hid
      cases (Finmap.lookup_erase _ _).symm.trans h
    · exact (lookup_erase_of_ne hid data).symm.trans h
  have hstored {id' : Nat} (h : id' ∈ (s.erase id data).storage) : id' ∈ s.storage := by
    simp only [PageState.erase] at h
    split at h
    · exact Finset.mem_of_mem_erase h
    · exact h
  have hhas {id' : Nat} (hid : id' ≠ id) (h : s.HasData id') : (s.erase id data).HasData id' := by
    obtain ⟨o', ho', hflag⟩ := h
    exact ⟨o', (lookup_erase_of_ne hid data).trans ho', hflag⟩
  constructor
  case fresh => exact fun id' o' h => hi.fresh id' o' (hkept h)
  case inj => exact fun id₁ id₂ o' h₁ h₂ => hi.inj id₁ id₂ o' (hkept h₁) (hkept h₂)
  case threads =>
    exact fun th hth huses =>
      (hi.threads th hth huses).erase (fun o ho => (hunused o ho).1 th hth huses) data
  case callbacks =>
    exact fun p hp => (hi.callbacks p hp).erase (fun o ho => (hunused o ho).2.1 p hp) data
  case storage =>
    refine fun id' hid' => hhas ?_ (hi.storage id' (hstored hid'))
    rintro rfl
    cases data with
    | true => exact Finset.notMem_erase _ _ hid'
    | false =>
      obtain ⟨o, ho, hflag⟩ := hi.storage id' hid'
      rw [hdata o ho rfl] at hflag
      cases hflag
  case paginated => exact fun id' hid' => hi.paginated id' (hstored hid')
  case creations =>
    refine fun c hc => { hi.creations c hc with
      storage := fun h => (hi.creations c hc).storage (hstored h)
      noted := fun hstage hv => hhas ?_ ((hi.creations c hc).noted hstage hv) }
    rintro rfl
    obtain ⟨o, ho, -⟩ := (hi.creations c hc).noted hstage hv
    rw [(hunused o ho).2.2 c hc rfl hstage] at hv
    cases hv
  case once => exact hi.once

theorem PageInv.deletePage (hi : PageInv s) (hunused : s.Unused id s.threads) :
    PageInv (s.deletePage id) := by
  unfold PageState.deletePage
  split
  · exact hi
  · rename_i o ho
    refine hi.erase (fun o' ho' hdata => ?_) hunused
    obtain rfl : o = o' := Option.some.inj (ho.symm.trans ho')
    exact hdata

theorem PageState.Live.deletePage (h : s.Live o) (hne : ∀ o' ∈ s.lookup id, o ≠ o') :
    (s.deletePage id).Live o := by
  unfold PageState.deletePage
  split
  · exact h
  · exact h.erase hne _

/-- The fields of an object change, but not the note of storage data that is there or about to
be set. -/
theorem PageInv.setObject (hi : PageInv s) {b : PagesT}
    (hb : ∀ id, s.lookup id = some o → (id ∈ s.storage ∨ ∃ c ∈ s.creations, c.message.id = id) →
      (s.objects o).hasStorageData = true → b.hasStorageData = true) :
    PageInv (s.setObject o b) := by
  have hhas {id : Nat} (hid : id ∈ s.storage ∨ ∃ c ∈ s.creations, c.message.id = id)
      (h : s.HasData id) : (s.setObject o b).HasData id := by
    obtain ⟨o', ho', hflag⟩ := h
    refine ⟨o', ho', ?_⟩
    by_cases ho : o' = o
    · subst ho
      simpa [PageState.setObject] using hb id ho' hid hflag
    · simpa [PageState.setObject, Function.update_of_ne ho] using hflag
  exact { hi with
    threads := hi.threads
    callbacks := hi.callbacks
    storage := fun id hid => hhas (.inl hid) (hi.storage id hid)
    creations := fun c hc => { hi.creations c hc with
      noted := fun hstage hv =>
        hhas (.inr ⟨c, hc, rfl⟩) ((hi.creations c hc).noted hstage hv) } }

/-! ## Creating an entry -/

theorem ensure_fields (s : PageState) (id : Nat) :
    (s.ensure id).1.storage = s.storage ∧ (s.ensure id).1.creations = s.creations ∧
      (s.ensure id).1.paginated = s.paginated ∧
      (s.ensure id).1.lookup id = some (s.ensure id).2 := by
  unfold PageState.ensure
  split
  · rename_i o ho
    exact ⟨rfl, rfl, rfl, ho⟩
  · exact ⟨rfl, rfl, rfl, Finmap.lookup_insert _⟩

theorem PageInv.ensure (hi : PageInv s) (id : Nat) : PageInv (s.ensure id).1 := by
  unfold PageState.ensure
  split
  · exact hi
  rename_i hnone
  have hother {id' : Nat} (hid : id' ≠ id) :
      (s.entries.insert id s.fresh).lookup id' = s.lookup id' := Finmap.lookup_insert_of_ne _ hid
  have hold {id' o' : Nat} (h : s.lookup id' = some o') :
      (s.entries.insert id s.fresh).lookup id' = some o' := by
    refine (hother ?_).trans h
    rintro rfl
    rw [hnone] at h
    cases h
  have hnew {id' o' : Nat} (h : (s.entries.insert id s.fresh).lookup id' = some o') :
      id' = id ∧ o' = s.fresh ∨ s.lookup id' = some o' := by
    by_cases hid : id' = id
    · subst hid
      exact .inl ⟨rfl, (Option.some.inj ((Finmap.lookup_insert _).symm.trans h)).symm⟩
    · exact .inr ((hother hid).symm.trans h)
  have hhas {id' : Nat} (h : s.HasData id') : PageState.HasData { s with
      entries := s.entries.insert id s.fresh
      objects := Function.update s.objects s.fresh {}
      fresh := s.fresh + 1 } id' := by
    obtain ⟨o', ho', hflag⟩ := h
    refine ⟨o', hold ho', ?_⟩
    have hne : o' ≠ s.fresh := Nat.ne_of_lt (hi.fresh id' o' ho')
    simpa [Function.update_of_ne hne] using hflag
  constructor
  case fresh =>
    intro id' o' h
    rcases hnew h with ⟨-, rfl⟩ | h
    · exact Nat.lt_succ_self _
    · exact Nat.lt_succ_of_lt (hi.fresh id' o' h)
  case inj =>
    intro id₁ id₂ o' h₁ h₂
    rcases hnew h₁ with ⟨rfl, hfresh⟩ | hold₁ <;> rcases hnew h₂ with ⟨rfl, hfresh'⟩ | hold₂
    · rfl
    · exact absurd (hi.fresh id₂ o' hold₂) (hfresh ▸ Nat.lt_irrefl _)
    · exact absurd (hi.fresh id₁ o' hold₁) (hfresh' ▸ Nat.lt_irrefl _)
    · exact hi.inj id₁ id₂ o' hold₁ hold₂
  case threads =>
    intro th hth huses
    obtain ⟨id', hid'⟩ := hi.threads th hth huses
    exact ⟨id', hold hid'⟩
  case callbacks =>
    intro p hp
    obtain ⟨id', hid'⟩ := hi.callbacks p hp
    exact ⟨id', hold hid'⟩
  case storage => exact fun id' hid' => hhas (hi.storage id' hid')
  case paginated => exact hi.paginated
  case creations =>
    exact fun c hc => { hi.creations c hc with
      noted := fun hstage hv => hhas ((hi.creations c hc).noted hstage hv) }
  case once => exact hi.once

/-- A field is assigned; nothing is known of storage data of the entry yet. -/
theorem PageInv.assign (hi : PageInv s) (hstorage : id ∉ s.storage)
    (hcreations : ∀ c ∈ s.creations, c.message.id ≠ id) (f : PagesT → PagesT) :
    PageInv (s.assign id f) := by
  obtain ⟨hst, hcr, -, hlookup⟩ := ensure_fields s id
  refine (hi.ensure id).setObject fun id' hid' h _ => ?_
  obtain rfl := (hi.ensure id).inj id' id _ hid' hlookup
  rw [hst, hcr] at h
  rcases h with h | ⟨c, hc, hid⟩
  · exact absurd h hstorage
  · exact absurd hid (hcreations c hc)

theorem assign_fields (s : PageState) (id : Nat) (f : PagesT → PagesT) :
    (s.assign id f).storage = s.storage ∧ (s.assign id f).creations = s.creations ∧
      (s.assign id f).paginated = s.paginated ∧ ∃ o, (s.assign id f).lookup id = some o ∧
        (s.assign id f).objects o = f ((s.ensure id).1.objects o) := by
  obtain ⟨hst, hcr, hpa, hlookup⟩ := ensure_fields s id
  exact ⟨hst, hcr, hpa, _, hlookup, Function.update_self ..⟩

/-- **A statement of a creation.** -/
theorem PageInv.create (hi : PageInv s) (hc : s.CreationInv c)
    (hothers : ∀ c' ∈ s.creations, c'.message.id ≠ c.message.id) :
    PageInv ((s.create c).advance c) := by
  unfold PageState.advance
  split
  · rename_i hstage
    rw [PageState.create, if_pos hstage]
    obtain ⟨hst, hcr, hpa, o, hlookup, hobject⟩ := assign_fields s c.message.id c.assigned
    have hnext := hi.assign hc.storage hothers c.assigned
    refine { hnext with creations := fun c' hc' => ?_, once := ?_ }
    · rcases List.mem_append.1 hc' with hc' | hc'
      · exact { hnext.creations c' hc' with }
      · rw [List.mem_singleton.1 hc']
        refine ⟨hstage, hpa ▸ hc.paginated, hst ▸ hc.storage, fun h hv => ⟨o, hlookup, ?_⟩⟩
        rw [hobject, Creation.assigned, Nat.succ.inj h]
        exact hv
    · rw [List.map_append, List.nodup_append]
      refine ⟨hnext.once, List.nodup_singleton _, fun id hid id' hid' => ?_⟩
      obtain ⟨c', hc', rfl⟩ := List.mem_map.1 hid
      obtain rfl := List.mem_singleton.1 hid'
      exact hothers c' (hcr ▸ hc')
  · rename_i hstage
    have hlast : c.stage = 5 := Nat.le_antisymm hc.stage (Nat.not_lt.1 hstage)
    rw [PageState.create, if_neg hstage]
    split
    · rename_i hv
      refine { hi with storage := fun id hid => ?_, paginated := fun id hid => ?_,
                       creations := fun c' hc' => ?_ }
      · rcases Finset.mem_insert.1 hid with rfl | hid
        · exact hc.noted hlast hv
        · exact hi.storage id hid
      · rcases Finset.mem_insert.1 hid with rfl | hid
        · exact hc.paginated
        · exact hi.paginated id hid
      · refine { hi.creations c' hc' with storage := fun h => ?_ }
        rcases Finset.mem_insert.1 h with h | h
        · exact hothers c' hc' h
        · exact (hi.creations c' hc').storage h
    · exact hi

/-! ## One step -/

theorem PageInv.addCallback (hi : PageInv s) (ho : s.Live o) (newCurrent : Nat) :
    PageInv { s with callbacks := s.callbacks ++ [(o, newCurrent)] } := by
  refine { hi with
    callbacks := fun p hp => ?_
    creations := fun c hc => { hi.creations c hc with } }
  rcases List.mem_append.1 hp with hp | hp
  · exact hi.callbacks p hp
  · rw [List.mem_singleton.1 hp]
    exact ho

/-- What is done under the lock of an object keeps it in the map. -/
theorem PageInv.edit (hi : PageInv s) (ho : s.Live o) {c : Nat} {permitted : Bool} {t : Int}
    (herases : ∀ id ∈ s.jobErases o permitted t (.edit c),
      s.Unused id s.threads ∧ ∀ o' ∈ s.lookup id, o ≠ o')
    (h : s.edit o c permitted t = some s') : PageInv s' ∧ s'.Live o := by
  unfold PageState.edit at h
  by_cases hcurrent : (s.objects o).current = c
  · rw [if_pos hcurrent] at h
    cases h
    exact ⟨hi, ho⟩
  · rw [if_neg hcurrent] at h
    obtain ⟨m, hm, h⟩ := Option.bind_eq_some_iff.1 h
    cases permitted with
    | false =>
      simp only [Bool.not_false, if_true, Option.some.injEq] at h
      subst h
      split
      · rename_i hold
        have hid : m.id ∈ s.jobErases o false t (.edit c) := by
          simp [jobErases, hcurrent, hm, hold]
        obtain ⟨hunused, hne⟩ := herases m.id hid
        exact ⟨hi.deletePage hunused, ho.deletePage hne⟩
      · exact ⟨hi, ho⟩
    | true =>
      simp only [Bool.not_true, Bool.false_eq_true, if_false] at h
      split at h
      · cases h
        exact ⟨hi, ho⟩
      · cases h
        refine ⟨PageInv.addCallback (hi.setObject ?_) ho _, ho⟩
        exact fun _ _ _ hflag => hflag

theorem PageInv.editCb (hi : PageInv s) (ho : s.Live o) {newCurrent : Nat} {cb : Confirmation}
    {permitted : Bool} {t : Int}
    (herases : ∀ id ∈ s.jobErases o permitted t (.editCb newCurrent cb),
      s.Unused id s.threads ∧ ∀ o' ∈ s.lookup id, o ≠ o')
    (h : s.editCb o newCurrent cb = some s') : PageInv s' ∧ s'.Live o := by
  have hdelete (hnpos : newCurrent = npos) (hcb : cb ≠ .error)
      (h : (s.objects o).message.map (fun m => s.deletePage m.id) = some s') :
      PageInv s' ∧ s'.Live o := by
    obtain ⟨m, hm, rfl⟩ := Option.map_eq_some_iff.1 h
    have hid : m.id ∈ s.jobErases o permitted t (.editCb newCurrent cb) := by
      simp [jobErases, hnpos, hcb, hm]
    obtain ⟨hunused, hne⟩ := herases m.id hid
    exact ⟨hi.deletePage hunused, ho.deletePage hne⟩
  unfold PageState.editCb at h
  cases cb with
  | error =>
    cases h
    exact ⟨hi, ho⟩
  | message m =>
    simp only at h
    split at h
    · rename_i hnpos
      exact hdelete hnpos (by simp) h
    · cases h
      exact ⟨hi.setObject fun _ _ _ hflag => hflag, ho⟩
  | other =>
    simp only at h
    split at h
    · rename_i hnpos
      exact hdelete hnpos (by simp) h
    · cases h
      exact ⟨hi.setObject fun _ _ _ hflag => hflag, ho⟩

theorem PageInv.job (hi : PageInv s) (ho : s.Live o) {permitted : Bool} {t : Int} {job : Job}
    (herases : ∀ id ∈ s.jobErases o permitted t job,
      s.Unused id s.threads ∧ ∀ o' ∈ s.lookup id, o ≠ o')
    (h : s.job o permitted t job = some s') : PageInv s' ∧ s'.Live o := by
  cases job with
  | edit c => exact hi.edit ho herases h
  | editCb newCurrent cb => exact hi.editCb ho herases h

theorem live_of_entryAfter {p : Nat × Nat} (h : s.entryAfter id = some p) : s.Live p.2 := by
  unfold entryAfter at h
  split at h
  · cases h
  · obtain ⟨o, ho, rfl⟩ := Option.map_eq_some_iff.1 h
    exact ⟨_, ho⟩

/-- `gc` erases the entry it is at, or not, and goes on to the next one. -/
theorem PageInv.sweep (hi : PageInv s) {clear : Bool} {t : Int}
    (herases : (clear || (s.objects o).message.any (·.old t)) = true → s.Unused id s.threads)
    (h : s.sweep o id clear t = some s') : PageInv s' := by
  obtain ⟨m, hm, rfl⟩ := Option.map_eq_some_iff.1 h
  have hswept : PageInv (if clear || m.old t then s.erase id true else s) := by
    split
    · rename_i hold
      refine hi.erase (fun _ _ h => by cases h) (herases ?_)
      rw [hm]
      exact hold
    · exact hi
  simp only
  split
  · exact hswept
  · rename_i id' o' hnext
    exact hswept.spawn fun _ => live_of_entryAfter hnext

/-- A button that leads to an edit uses the entry. -/
theorem uses_of_updatePage {b : PagesT} {param : String} {c : Nat}
    (h : b.updatePage param = some c) : (readsEntry param || param = "h") = true := by
  unfold PagesT.updatePage at h
  split at h
  · rename_i hn
    simp [readsEntry, hn]
  · split at h
    · rename_i hp
      simp [readsEntry, hp]
    · split at h
      · rename_i hh
        simp [hh]
      · split at h
        · cases h
        · split at h
          · rename_i hh hj hvalid
            simp [readsEntry, hh, hj, hvalid]
          · cases h

/-- **A thread goes on.** -/
theorem PageInv.resume (hi : PageInv s) {permitted : Bool} {t : Int}
    (ho : th.uses → s.Live th.obj)
    (hjob : ∀ job, th.pc = .locked job → ∀ id ∈ s.jobErases th.obj permitted t job,
      s.Unused id s.threads ∧ ∀ o' ∈ s.lookup id, th.obj ≠ o')
    (hsweep : ∀ id clear t, th.pc = .sweeping id clear t →
      (clear || (s.objects th.obj).message.any (·.old t)) = true → s.Unused id s.threads)
    (h : s.resume th permitted t = some s') : PageInv s' := by
  obtain ⟨o, pc⟩ := th
  cases pc with
  | found param =>
    cases h
    split
    · exact hi
    · rename_i c hc
      exact hi.spawn fun _ => ho (uses_of_updatePage hc)
  | locking job =>
    simp only [PageState.resume] at h
    split at h
    · cases h
    · cases h
      exact (hi.setLock o true).spawn fun _ => ho rfl
  | locked job =>
    obtain ⟨u, hu, rfl⟩ := Option.map_eq_some_iff.1 h
    obtain ⟨hnext, hlive⟩ := hi.job (ho rfl) (hjob job rfl) hu
    exact hnext.spawn fun _ => hlive
  | unlocking =>
    cases h
    exact hi.setLock o false
  | sweeping id clear t => exact hi.sweep (hsweep id clear t rfl) h

/-- **Every step that erases no entry in use keeps the addresses those of entries.** -/
theorem PageInv.step (hi : PageInv s) {a : PageAction} (hc : ErasesUnused s a)
    (h : pageStep s a = some s') : PageInv s' := by
  cases a with
  | create m pages hasV =>
    simp only [pageStep] at h
    split at h
    · cases h
    · rename_i hnew
      cases h
      refine { hi with paginated := fun id hid => ?_, creations := fun c hc => ?_, once := ?_ }
      · exact List.mem_append_left _ (hi.paginated id hid)
      · rcases List.mem_append.1 hc with hc | hc
        · exact { hi.creations c hc with
            paginated := List.mem_append_left _ (hi.creations c hc).paginated }
        · rw [List.mem_singleton.1 hc]
          refine ⟨Nat.zero_le 5, by simp, fun h => hnew (hi.paginated _ h), fun h => by cases h⟩
      · rw [List.map_append, List.nodup_append]
        refine ⟨hi.once, List.nodup_singleton _, fun id hid id' hid' => ?_⟩
        obtain ⟨c, hc, rfl⟩ := List.mem_map.1 hid
        obtain rfl := List.mem_singleton.1 hid'
        intro (hsame : c.message.id = m.id)
        exact hnew (hsame ▸ (hi.creations c hc).paginated)
  | assign j =>
    obtain ⟨c, hj, rfl⟩ := Option.map_eq_some_iff.1 h
    have hothers : ∀ c' ∈ s.creations.eraseIdx j, c'.message.id ≠ c.message.id := by
      intro c' hc' hsame
      obtain ⟨i, hne, hi'⟩ := List.mem_eraseIdx_iff_getElem?.1 hc'
      refine hne ((List.getElem?_inj ?_ hi.once).1 ?_)
      · rw [List.length_map]
        exact (List.getElem?_eq_some_iff.1 hi').1
      · rw [List.getElem?_map, List.getElem?_map, hi', hj, Option.map_some, Option.map_some, hsame]
    have hrest : PageInv { s with creations := s.creations.eraseIdx j } := { hi with
      creations := fun c' hc' => { hi.creations c' (List.mem_of_mem_eraseIdx hc') with }
      once := hi.once.sublist ((List.eraseIdx_sublist _ j).map _) }
    exact hrest.create { hi.creations c (List.mem_of_getElem? hj) with } hothers
  | press id param =>
    cases h
    split
    · exact hi
    · split
      · exact hi
      · rename_i o ho
        exact hi.spawn fun _ => ⟨id, ho⟩
  | delete id =>
    cases h
    exact hi.deletePage (hc (id, s.threads) rfl)
  | gc clear t =>
    simp only [pageStep] at h
    split at h
    · cases h
      exact hi
    · obtain ⟨o, ho, rfl⟩ := Option.map_eq_some_iff.1 h
      exact hi.spawn fun _ => ⟨_, ho⟩
  | confirm j cb =>
    obtain ⟨⟨o, newCurrent⟩, hj, rfl⟩ := Option.map_eq_some_iff.1 h
    have hrest : PageInv { s with callbacks := s.callbacks.eraseIdx j } := { hi with
      callbacks := fun p hp => hi.callbacks p (List.mem_of_mem_eraseIdx hp)
      creations := fun c hc => { hi.creations c hc with } }
    exact hrest.spawn fun _ => hi.callbacks _ (List.mem_of_getElem? hj)
  | turn i permitted t =>
    obtain ⟨th, hth, h⟩ := Option.bind_eq_some_iff.1 h
    have hmem := List.mem_of_getElem? hth
    have hfewer {id : Nat} (h : s.Unused id s.threads) :
        (s.without i).Unused id (s.without i).threads :=
      fun o ho => ⟨fun th hth => (h o ho).1 th (List.mem_of_mem_eraseIdx hth), (h o ho).2⟩
    refine (hi.without i).resume (hi.threads th hmem) (fun job hpc id hid => ?_)
      (fun id clear t' hpc hold => ?_) h
    · have hunused : s.Unused id s.threads := by
        refine hc (id, s.threads) ?_
        simp only [erases, hth, Option.bind_some, hpc]
        exact Option.mem_map_of_mem _ hid
      exact ⟨hfewer hunused, fun o' ho' => (hunused o' ho').1 th hmem (by simp [Thread.uses, hpc])⟩
    · refine hc (id, s.threads.eraseIdx i) ?_
      simp only [erases, hth, Option.bind_some, hpc]
      exact if_pos hold

/-! ## Every run -/

theorem pageInv_init : PageInv {} := by
  constructor
  case once => exact List.nodup_nil
  all_goals simp [PageState.lookup]

theorem pageInv_run {l : List PageAction} (hc : Along pageStep ErasesUnused {} l)
    (h : run pageStep {} l = some s) : PageInv s :=
  run_inv (fun _ _ _ hi hc hs => hi.step hc hs) pageInv_init hc h

/-- What a step touches is live. -/
theorem PageInv.touches (hi : PageInv s) {a : PageAction} (h : o ∈ s.touches a) : s.Live o := by
  cases a with
  | assign j =>
    obtain ⟨c, -, hlookup⟩ := Option.bind_eq_some_iff.1 (Option.mem_toList.1 h)
    exact ⟨_, hlookup⟩
  | delete id => exact ⟨id, Option.mem_toList.1 h⟩
  | turn i permitted t =>
    obtain ⟨th, hth, htouches⟩ := Option.bind_eq_some_iff.1 (Option.mem_toList.1 h)
    have hmem := List.mem_of_getElem? hth
    unfold Thread.touches at htouches
    split at htouches
    · rename_i param hpc
      split at htouches
      · rename_i hreads
        cases htouches
        exact hi.threads th hmem (by simp [Thread.uses, hpc, hreads])
      · cases htouches
    · rename_i hpc
      cases htouches
      refine hi.threads th hmem ?_
      unfold Thread.uses
      split
      · rename_i param hfound
        exact absurd hfound (hpc param)
      · rfl
  | create m pages hasV => cases h
  | press id param => cases h
  | gc clear t => cases h
  | confirm j cb => cases h

theorem not_live_deletePage (hi : PageInv s) (ho : s.lookup id = some o) :
    ¬ (s.deletePage id).Live o := by
  rintro ⟨id', hid'⟩
  simp only [PageState.deletePage, ho] at hid'
  by_cases hid : id' = id
  · subst hid
    cases (Finmap.lookup_erase _ _).symm.trans hid'
  · exact hid (hi.inj id' id o ((lookup_erase_of_ne hid _).symm.trans hid') ho)

/-- **Every confirmation of an edit that came after the hour** erases the entry, and is about to
unlock the object then. -/
theorem confirm_late (hi : PageInv s) {i : Nat} {cb : Confirmation} {m : Message}
    (hth : s.threads[i]? = some ⟨o, .locked (.editCb npos cb)⟩) (hcb : cb ≠ .error)
    (hm : (s.objects o).message = some m) (hid : s.lookup m.id = some o) (permitted : Bool)
    (t : Int) : ∃ s', pageStep s (.turn i permitted t) = some s' ∧
      ⟨o, .unlocking⟩ ∈ s'.threads ∧ ¬ s'.Live o := by
  have hjob : (s.without i).editCb o npos cb = some ((s.without i).deletePage m.id) := by
    have hmessage : ((s.without i).objects o).message = some m := hm
    unfold PageState.editCb
    cases cb with
    | error => exact absurd rfl hcb
    | message m' => simp [hmessage]
    | other => simp [hmessage]
  refine ⟨((s.without i).deletePage m.id).spawn ⟨o, .unlocking⟩, ?_, ?_, ?_⟩
  · simp only [pageStep, hth, Option.bind_some, PageState.resume, PageState.job, hjob,
      Option.map_some]
  · exact List.mem_append_right _ (List.mem_singleton_self _)
  · exact not_live_deletePage (hi.without i) hid

/-- A book of two pages, sent at the time zero, and a press of its button at the time `t`. -/
def book : Message := { id := 7, created := 0 }

def pressed (t : Int) : List PageAction :=
  .create book ["a", "b"] true :: List.replicate 6 (.assign 0) ++
    [.press 7 "n", .turn 0 true t, .turn 0 true t, .turn 0 true t, .turn 0 true t,
      .confirm 0 .other, .turn 0 true t, .turn 0 true t]

/-- The press, confirmed, and the message deleted after it. -/
def pressedAndDeleted : List PageAction := pressed 60 ++ [.turn 0 true 60, .delete 7]

/-- The message is deleted before its storage data is set. -/
example : (run pageStep {} (.create book [] true :: List.replicate 5 (.assign 0) ++
    [.delete 7, .assign 0])).map (fun s => (s.lookup 7, s.storage)) = some (none, {7}) := by
  decide

end

end Musicat.Paginate
