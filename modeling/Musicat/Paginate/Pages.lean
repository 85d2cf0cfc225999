import Mathlib.Data.Finmap
import Mathlib.Data.Finset.Max
import Mathlib.Logic.Function.Basic

/-!
# Paginated messages

`paginated_messages` holds the pages of a message under its id. A button press
finds the entry, computes the page to show and shows it under the lock of the
entry; the confirmation of the edit comes back later and goes to the object
that the edit was made on, by its address. Entries are erased on the deletion
of the message, by `gc`, and by an edit and its confirmation themselves. An
object is known by a number that is never used again, so that one that has been
erased differs from all others.

The map is taken to be one that threads may use at once: finding, adding and
erasing an entry are each one step. A step that would follow a null `message`
is not taken. What is printed or replied is left out.
-/

namespace Musicat.Paginate

/-- What is used of a `dpp::message`; `created` is `get_creation_time`. -/
structure Message where
  id : Nat
  created : Int
  embeds : List String := []
  /-- Its components are disabled. -/
  disabled : Bool := false
  deriving DecidableEq, Repr

/-- `pages_t`, without its `client`. -/
structure PagesT where
  message : Option Message := none
  pages : List String := []
  current : Nat := 0
  hasStorageData : Bool := false
  deriving DecidableEq, Repr

/-- `std::string::npos`. -/
def npos : Nat := 2 ^ 64 - 1

/-- `ONE_HOUR_SECOND`. -/
def oneHourSecond : Int := 3600

/-- The message is older than an hour. -/
def Message.old (m : Message) (t : Int) : Bool := t - m.created > oneHourSecond

/-! ## The page to show -/

/-- `valid_number`: zero when every character is a digit and there is one. -/
def validNumber (s : String) : Bool := !s.isEmpty && s.toList.all Char.isDigit

/-- `std::stoll` on digits; `none` when it is out of range. -/
def stoll (s : String) : Option Int :=
  let n := s.toList.foldl (fun n c => 10 * n + (c.toNat - '0'.toNat)) 0
  if n < 2 ^ 63 then some n else none

namespace PagesT

/-- `pages.size () - 1`, in `size_t`. -/
def last (b : PagesT) : Nat := (b.pages.length + npos) % 2 ^ 64

/-- What `next`, `previous`, `home` and `update_page` give to `edit`. -/
def next (b : PagesT) : Nat := if b.current = b.last then 0 else b.current + 1

def previous (b : PagesT) : Nat := if b.current = 0 then b.last else b.current - 1

/-- The page of a number; a negative one is converted to `size_t`. -/
def jump (b : PagesT) (n : Int) : Nat :=
  let pn := n - 1
  let maxPsize : Int := b.pages.length - 1
  let pn := if pn > maxPsize then maxPsize else if pn < 0 then 0 else pn
  (pn % 2 ^ 64).toNat

/-- `update_page`, once it has an entry: the page it edits to, or `none` when it replies. -/
def updatePage (b : PagesT) (param : String) : Option Nat :=
  if param = "n" then some b.next
  else if param = "p" then some b.previous
  else if param = "h" then some 0
  else if param = "j" then none
  else if validNumber param then (stoll param).map b.jump
  else none

end PagesT

/-- `update_page` reads the entry to know the page. -/
def readsEntry (param : String) : Bool :=
  param = "n" || param = "p" || param ≠ "h" && param ≠ "j" && validNumber param

/-! ## The threads -/

/-- What an edit is confirmed with. -/
inductive Confirmation where
  | error
  | message (m : Message)
  /-- No error, and a value that is no message. -/
  | other
  deriving DecidableEq, Repr

/-- What is done under the lock of an object. -/
inductive Job where
  | edit (c : Nat)
  | editCb (newCurrent : Nat) (cb : Confirmation)
  deriving DecidableEq, Repr

/-- Where a thread is that has the address of an object. -/
inductive Pc where
  /-- In `update_page`, with the entry found. -/
  | found (param : String)
  | locking (job : Job)
  | locked (job : Job)
  | unlocking
  /-- In the loop of `gc`, which is at the entry of `id`. -/
  | sweeping (id : Nat) (clear : Bool) (t : Int)
  deriving DecidableEq, Repr

structure Thread where
  obj : Nat
  pc : Pc
  deriving DecidableEq, Repr

/-- The callback of `get_inter_reply_cb`, `stage` of whose statements have been executed. -/
structure Creation where
  message : Message
  pages : List String
  hasV : Bool
  stage : Nat := 0
  deriving DecidableEq, Repr

/-- The fields after the assignment that comes next: of `client`, `message`, `pages`, `current`
and `has_storage_data`. -/
def Creation.assigned (c : Creation) (b : PagesT) : PagesT :=
  match c.stage with
  | 0 => b
  | 1 => { b with message := some c.message }
  | 2 => { b with pages := c.pages }
  | 3 => { b with current := 0 }
  | _ => { b with hasStorageData := c.hasV }

structure PageState where
  /-- `paginated_messages`: the number of the object under an id. -/
  entries : Finmap fun _ : Nat => Nat := ∅
  /-- The objects, those that have been erased too. -/
  objects : Nat → PagesT := fun _ => {}
  fresh : Nat := 0
  /-- The objects whose `s_mutex` is locked. -/
  locks : Nat → Bool := fun _ => false
  /-- The ids in `messages_storage`. -/
  storage : Finset Nat := ∅
  threads : List Thread := []
  /-- The edits not confirmed yet: the object and `new_current`. -/
  callbacks : List (Nat × Nat) := []
  creations : List Creation := []
  /-- The messages paginated so far. -/
  paginated : List Nat := []

namespace PageState

def lookup (s : PageState) (id : Nat) : Option Nat := s.entries.lookup id

/-- The object is that of an entry. -/
def Live (s : PageState) (o : Nat) : Prop := ∃ id, s.lookup id = some o

def setObject (s : PageState) (o : Nat) (b : PagesT) : PageState :=
  { s with objects := Function.update s.objects o b }

def setLock (s : PageState) (o : Nat) (b : Bool) : PageState :=
  { s with locks := Function.update s.locks o b }

def spawn (s : PageState) (th : Thread) : PageState := { s with threads := s.threads ++ [th] }

/-- Without the thread at index `i`. -/
def without (s : PageState) (i : Nat) : PageState := { s with threads := s.threads.eraseIdx i }

/-! ## The entries -/

/-- An entry is erased, and its storage data if `data` says so. -/
def erase (s : PageState) (id : Nat) (data : Bool) : PageState :=
  { s with
    entries := s.entries.erase id
    storage := if data then s.storage.erase id else s.storage }

/-- `delete_page`. -/
def deletePage (s : PageState) (id : Nat) : PageState :=
  match s.lookup id with
  | none => s
  | some o => s.erase id (s.objects o).hasStorageData

/-- `paginated_messages[id]`. -/
def ensure (s : PageState) (id : Nat) : PageState × Nat :=
  match s.lookup id with
  | some o => (s, o)
  | none =>
    ({ s with
       entries := s.entries.insert id s.fresh
       objects := Function.update s.objects s.fresh {}
       fresh := s.fresh + 1 }, s.fresh)

/-- A statement `paginated_messages[id].field = value`. -/
def assign (s : PageState) (id : Nat) (f : PagesT → PagesT) : PageState :=
  let (s', o) := s.ensure id
  s'.setObject o (f (s'.objects o))

/-- The entry after that of `id`. -/
def entryAfter (s : PageState) (id : Nat) : Option (Nat × Nat) :=
  match (s.entries.keys.filter (id < ·)).min with
  | ⊤ => none
  | some id' => (s.lookup id').map (id', ·)

/-- A statement of `get_inter_reply_cb`; the last one sets the storage data. -/
def create (s : PageState) (c : Creation) : PageState :=
  if c.stage < 5 then s.assign c.message.id c.assigned
  else if c.hasV then { s with storage := insert c.message.id s.storage }
  else s

/-- The creation goes on to its next statement, when there is one. -/
def advance (s : PageState) (c : Creation) : PageState :=
  if c.stage < 5 then { s with creations := s.creations ++ [{ c with stage := c.stage + 1 }] }
  else s

/-! ## Under the lock -/

/-- `edit`, from its lock on. -/
def edit (s : PageState) (o c : Nat) (permitted : Bool) (t : Int) : Option PageState :=
  let b := s.objects o
  if b.current = c then some s
  else
    b.message.bind fun m =>
      if !permitted then some (if m.old t then s.deletePage m.id else s)
      else
        match b.pages[c]? with
        | none => some s
        | some embed =>
          let m' := { m with embeds := [embed], disabled := m.disabled || m.old t }
          some { s.setObject o { b with message := some m' } with
            callbacks := s.callbacks ++ [(o, if m.old t then npos else c)] }

/-- `edit_cb`, from its lock on. -/
def editCb (s : PageState) (o newCurrent : Nat) (cb : Confirmation) : Option PageState :=
  let b := s.objects o
  match cb with
  | .error => some s
  | .message m =>
    if newCurrent = npos then b.message.map fun m => s.deletePage m.id
    else some (s.setObject o { b with message := some m, current := newCurrent })
  | .other =>
    if newCurrent = npos then b.message.map fun m => s.deletePage m.id
    else some (s.setObject o { b with current := newCurrent })

def job (s : PageState) (o : Nat) (permitted : Bool) (t : Int) : Job → Option PageState
  | .edit c => s.edit o c permitted t
  | .editCb newCurrent cb => s.editCb o newCurrent cb

/-- One turn of the loop of `gc`. -/
def sweep (s : PageState) (o id : Nat) (clear : Bool) (t : Int) : Option PageState :=
  (s.objects o).message.map fun m =>
    let s' := if clear || m.old t then s.erase id true else s
    match s'.entryAfter id with
    | none => s'
    | some (id', o') => s'.spawn ⟨o', .sweeping id' clear t⟩

/-- What a thread does next; `permitted` is what `has_permissions` says, and `t` the time. -/
def resume (s : PageState) (th : Thread) (permitted : Bool) (t : Int) : Option PageState :=
  match th.pc with
  | .found param =>
    some (match (s.objects th.obj).updatePage param with
      | none => s
      | some c => s.spawn ⟨th.obj, .locking (.edit c)⟩)
  | .locking job =>
    if s.locks th.obj then none
    else some ((s.setLock th.obj true).spawn ⟨th.obj, .locked job⟩)
  | .locked job => (s.job th.obj permitted t job).map (·.spawn ⟨th.obj, .unlocking⟩)
  | .unlocking => some (s.setLock th.obj false)
  | .sweeping id clear t => s.sweep th.obj id clear t

end PageState

/-! ## The system -/

inductive PageAction where
  /-- A message is sent whose response is paginated or has storage data; each is paginated once. -/
  | create (m : Message) (pages : List String) (hasV : Bool)
  /-- The next statement of a creation. -/
  | assign (j : Nat)
  /-- `update_page` looks for the entry. -/
  | press (id : Nat) (param : String)
  /-- `delete_page`, for a message deleted, alone or in bulk. -/
  | delete (id : Nat)
  /-- `gc` begins. -/
  | gc (clear : Bool) (t : Int)
  /-- An edit is confirmed. -/
  | confirm (j : Nat) (cb : Confirmation)
  /-- The thread at index `i` takes its next step. -/
  | turn (i : Nat) (permitted : Bool) (t : Int)
  deriving DecidableEq, Repr

open PageState

def pageStep (s : PageState) : PageAction → Option PageState
  | .create m pages hasV =>
    if m.id ∈ s.paginated then none
    else some { s with
      creations := s.creations ++ [⟨m, pages, hasV, 0⟩]
      paginated := s.paginated ++ [m.id] }
  | .assign j =>
    (s.creations[j]?).map fun c =>
      ({ s with creations := s.creations.eraseIdx j }.create c).advance c
  | .press id param =>
    some (if param.isEmpty then s
      else
        match s.lookup id with
        | none => s
        | some o => s.spawn ⟨o, .found param⟩)
  | .delete id => some (s.deletePage id)
  | .gc clear t =>
    match s.entries.keys.min with
    | ⊤ => some s
    | some id => (s.lookup id).map fun o => s.spawn ⟨o, .sweeping id clear t⟩
  | .confirm j cb =>
    (s.callbacks[j]?).map fun (o, newCurrent) =>
      { s with callbacks := s.callbacks.eraseIdx j }.spawn ⟨o, .locking (.editCb newCurrent cb)⟩
  | .turn i permitted t =>
    (s.threads[i]?).bind fun th => (s.without i).resume th permitted t

end Musicat.Paginate
