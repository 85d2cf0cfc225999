import Musicat.Child.Codec
import Musicat.Player.Seek

/-!
# The dashboard's time events

`publish_seek` gives its milliseconds to `publish_int32_event`, as the event for
the progress does, which sends a `uint32_t`: a number below 1000 as decimal text,
of at most three bytes, any other as four bytes, the highest one first. The two
forms have different lengths, so that a message has the number as it is in 32
bits (`int32Data_inj`); what is above these is not sent.
-/

namespace Musicat.Server

open Child Player

/-- `socket_binary_event_e`, of the two events. -/
inductive SocketBinaryEvent where
  | seek
  | progress
  deriving DecidableEq, Repr

def SocketBinaryEvent.byte : SocketBinaryEvent → UInt8
  | .seek => 's'.toUInt8
  | .progress => 'S'.toUInt8

/-- `binary_event`. -/
def binaryEvent (event : SocketBinaryEvent) (data : Bytes) : Bytes := event.byte :: data

/-- The data of `publish_int32_event`. -/
def int32Data (n : UInt32) : Bytes :=
  if n < 1000 then bytes (toString (n.toNat : Int))
  else
    [((n &&& 0xff000000) >>> 24).toUInt8, ((n &&& 0x00ff0000) >>> 16).toUInt8,
      ((n &&& 0x0000ff00) >>> 8).toUInt8, (n &&& 0x000000ff).toUInt8]

def publishInt32Event (event : SocketBinaryEvent) (n : UInt32) : Bytes :=
  binaryEvent event (int32Data n)

def publishSeek (seekMs : UInt64) : Bytes := publishInt32Event .seek seekMs.toUInt32

section
variable {n m : UInt32}

/-- A byte of a number that is masked and shifted. -/
theorem masked_byte (a k : Nat) : (a &&& 255 <<< k) >>> k % 256 = a / 2 ^ k % 256 := by
  rw [Nat.shiftRight_and_distrib, Nat.shiftLeft_shiftRight, Nat.shiftRight_eq_div_pow]
  rw [show 255 = 2 ^ 8 - 1 from rfl, Nat.and_two_pow_sub_one_eq_mod]
  exact Nat.mod_mod _ _

/-- The four bytes, from the highest one. -/
theorem int32Data_large (h : ¬ n < 1000) :
    (int32Data n).map UInt8.toNat =
      [n.toNat / 2 ^ 24 % 256, n.toNat / 2 ^ 16 % 256, n.toNat / 2 ^ 8 % 256, n.toNat % 256] := by
  rw [int32Data, if_neg h]
  simp only [List.map_cons, List.map_nil, UInt32.toNat_toUInt8, UInt32.toNat_shiftRight,
    UInt32.toNat_and]
  refine List.cons_eq_cons.2 ⟨masked_byte n.toNat 24, List.cons_eq_cons.2
    ⟨masked_byte n.toNat 16, List.cons_eq_cons.2 ⟨masked_byte n.toNat 8, ?_⟩⟩⟩
  have hlast : (n.toNat &&& 255) % 256 = n.toNat % 256 := by
    simpa using masked_byte n.toNat 0
  exact congrArg (fun b => [b]) hlast

theorem int32Data_small_length (h : n < 1000) : (int32Data n).length ≤ 3 := by
  have hlt : n.toNat < 10 ^ 3 := h
  rw [int32Data, if_pos h, bytes_toString, List.length_map]
  exact (Nat.length_toDigits_le_iff (by decide) (by decide)).2 hlt

/-- **The data has the number.** -/
theorem int32Data_inj : int32Data n = int32Data m ↔ n = m := by
  refine ⟨fun heq => ?_, congrArg int32Data⟩
  apply UInt32.toNat_inj.1
  by_cases hn : n < 1000
  · by_cases hm : m < 1000
    · rw [int32Data, if_pos hn, int32Data, if_pos hm] at heq
      have := congrArg strtol heq
      rw [strtol_toString, strtol_toString] at this
      exact (Prod.mk.inj (Option.some.inj this)).2
    · have hlen := int32Data_small_length hn
      have hfour := congrArg List.length (int32Data_large hm)
      rw [List.length_map, ← heq] at hfour
      simp only [List.length_cons, List.length_nil] at hfour
      omega
  · by_cases hm : m < 1000
    · have hlen := int32Data_small_length hm
      have hfour := congrArg List.length (int32Data_large hn)
      rw [List.length_map, heq] at hfour
      simp only [List.length_cons, List.length_nil] at hfour
      omega
    · have hbytes := congrArg (List.map UInt8.toNat) heq
      rw [int32Data_large hn, int32Data_large hm] at hbytes
      simp only [List.cons.injEq, and_true] at hbytes
      have hn' := n.toNat_lt
      have hm' := m.toNat_lt
      omega

/-- **The positions of two seek messages that are the same agree modulo `2 ^ 32`**, and only
these. -/
theorem publish_seek_eq_iff (seekMs seekMs' : UInt64) :
    publishSeek seekMs = publishSeek seekMs' ↔
      seekMs.toNat % 2 ^ 32 = seekMs'.toNat % 2 ^ 32 := by
  have hdata : publishSeek seekMs = publishSeek seekMs' ↔
      int32Data seekMs.toUInt32 = int32Data seekMs'.toUInt32 := List.cons_inj_right _
  rw [hdata, int32Data_inj, ← UInt32.toNat_inj, UInt64.toNat_toUInt32, UInt64.toNat_toUInt32]

end

/-- The commands `/seek to:5` and `/seek to:4294972.296` publish the same. -/
theorem publish_seek_same :
    (∃ p : GuildPlayer,
      (seekRun (some p) "5").bind (·.published) = some (5000 : UInt64).toNat ∧
        (seekRun (some p) "4294972.296").bind (·.published) = some (4294972296 : UInt64).toNat) ∧
      publishSeek 5000 = publishSeek 4294972296 := by
  refine ⟨⟨{
    queue := [{ filename := "a" }], currentTrack := { raw := "a", filename := "a" } }, ?_, ?_⟩, ?_⟩
  · decide
  · decide
  · decide

end Musicat.Server
