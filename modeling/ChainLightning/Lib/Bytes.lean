/-
Big-endian integers and byte slices.

`beBytes w n` is the `w`-byte big-endian encoding of `n`, `beNat` reads
such bytes back, and `slice buf a b` is the half-open slice `[a, b)` of
a buffer. The two facts a fixed-layout codec rests on are here: the
integer conversions invert each other on the widths they fit
(`beNat_beBytes_of_lt`, `beBytes_beNat`), and consecutive slices
concatenate back to the prefix they cover (`take_append_slice`).

A frame is a body behind its length. `frames` writes bodies one after
the other; a reader standing at the front of a frame finds the length
(`slice_frame_length`) and the body (`slice_frame_body`) by slices.
-/
import Mathlib.Data.List.Basic
import Mathlib.Tactic.Ring

namespace Bytes

-- =================================================== big-endian integers

/-- The `w` low bytes of `n`, most significant first. -/
def beBytes : Nat → Nat → List UInt8
  | 0, _ => []
  | w + 1, n => UInt8.ofNat (n / 256 ^ w) :: beBytes w n

/-- The number that big-endian bytes spell. -/
def beNat : List UInt8 → Nat
  | [] => 0
  | b :: l => b.toNat * 256 ^ l.length + beNat l

@[simp] theorem beBytes_length (w n : Nat) : (beBytes w n).length = w := by
  induction w with
  | zero => rfl
  | succ w ih => rw [beBytes, List.length_cons, ih]

/-- Reading back keeps the value modulo the width. -/
theorem beNat_beBytes (w n : Nat) : beNat (beBytes w n) = n % 256 ^ w := by
  induction w with
  | zero => rw [beBytes, beNat, Nat.pow_zero, Nat.mod_one]
  | succ w ih =>
      have hsplit : n % 256 ^ (w + 1)
          = n % 256 ^ w + 256 ^ w * (n / 256 ^ w % 256) := by
        rw [Nat.pow_succ]
        exact Nat.mod_mul
      rw [beBytes, beNat, ih, beBytes_length, UInt8.toNat_ofNat', hsplit,
        Nat.mul_comm, Nat.add_comm]

theorem beNat_beBytes_of_lt {w n : Nat} (h : n < 256 ^ w) :
    beNat (beBytes w n) = n := by
  rw [beNat_beBytes, Nat.mod_eq_of_lt h]

theorem beNat_lt (l : List UInt8) : beNat l < 256 ^ l.length := by
  induction l with
  | nil => decide
  | cons b l ih =>
      rw [beNat, List.length_cons, Nat.pow_succ]
      have hb : b.toNat ≤ 255 := Nat.le_of_lt_succ b.toNat_lt
      have hmul := Nat.mul_le_mul_right (256 ^ l.length) hb
      omega

/-- The bytes written do not depend on what lies above their width. -/
theorem beBytes_add_mul (w k n : Nat) :
    beBytes w (k * 256 ^ w + n) = beBytes w n := by
  induction w generalizing k with
  | zero => rfl
  | succ w ih =>
      have hsplit : k * 256 ^ (w + 1) + n = (k * 256) * 256 ^ w + n := by ring
      have hpos : 0 < 256 ^ w := Nat.pow_pos (by decide)
      have hdiv : (k * 256 * 256 ^ w + n) / 256 ^ w
          = n / 256 ^ w + 256 * k := by
        rw [Nat.add_comm, Nat.add_mul_div_right _ _ hpos]
        ring
      rw [beBytes, beBytes, hsplit, ih, hdiv]
      congr 1
      apply UInt8.toNat_inj.mp
      rw [UInt8.toNat_ofNat', UInt8.toNat_ofNat', Nat.add_mul_mod_self_left]

/-- Writing back what was read restores the bytes. -/
theorem beBytes_beNat (l : List UInt8) : beBytes l.length (beNat l) = l := by
  induction l with
  | nil => rfl
  | cons b l ih =>
      have hpos : 0 < 256 ^ l.length := Nat.pow_pos (by decide)
      have hdiv : (b.toNat * 256 ^ l.length + beNat l) / 256 ^ l.length
          = b.toNat := by
        rw [Nat.add_comm, Nat.add_mul_div_right _ _ hpos,
          Nat.div_eq_of_lt (beNat_lt l), Nat.zero_add]
      rw [List.length_cons, beNat, beBytes, hdiv, beBytes_add_mul, ih,
        UInt8.ofNat_toNat]

theorem beBytes_beNat_of_length {w : Nat} {l : List UInt8}
    (h : l.length = w) : beBytes w (beNat l) = l := by
  subst h
  exact beBytes_beNat l

-- ================================================================ slices

variable {α : Type*}

/-- The slice `[a, b)` of a buffer. -/
def slice (buf : List α) (a b : Nat) : List α := (buf.drop a).take (b - a)

theorem slice_length {buf : List α} {a b : Nat} (hb : b ≤ buf.length) :
    (slice buf a b).length = b - a := by
  unfold slice
  rw [List.length_take, List.length_drop]
  omega

/-- A prefix followed by the slice behind it is the longer prefix. -/
theorem take_append_slice (buf : List α) {a b : Nat} (h : a ≤ b) :
    buf.take a ++ slice buf a b = buf.take b := by
  unfold slice
  obtain ⟨k, rfl⟩ := Nat.exists_eq_add_of_le h
  rw [Nat.add_sub_cancel_left, List.take_add]

/-- A slice followed by what is behind it. -/
theorem slice_append_drop (buf : List α) {a b : Nat} (h : a ≤ b) :
    slice buf a b ++ buf.drop b = buf.drop a := by
  unfold slice
  obtain ⟨k, rfl⟩ := Nat.exists_eq_add_of_le h
  rw [Nat.add_sub_cancel_left, ← List.drop_drop, List.take_append_drop]

/-- A slice of a buffer's own tail, behind a front of known length. -/
theorem slice_append_right {front back rest : List α} {a b : Nat}
    (ha : front.length = a) (hb : a + back.length = b) :
    slice (front ++ (back ++ rest)) a b = back := by
  subst ha hb
  unfold slice
  rw [List.drop_left, Nat.add_sub_cancel_left, List.take_left]

-- ================================================ length-prefixed frames

/-- A body behind its `w`-byte length. -/
def frame (w : Nat) (body : List UInt8) : List UInt8 :=
  beBytes w body.length ++ body

/-- Bodies framed one after the other. -/
def frames (w : Nat) (bodies : List (List UInt8)) : List UInt8 :=
  bodies.flatMap (frame w)

@[simp] theorem frame_length (w : Nat) (body : List UInt8) :
    (frame w body).length = w + body.length := by
  rw [frame, List.length_append, beBytes_length]

@[simp] theorem frames_nil (w : Nat) : frames w [] = [] := rfl

theorem frames_cons (w : Nat) (p : List UInt8) (ps : List (List UInt8)) :
    frames w (p :: ps) = frame w p ++ frames w ps := List.flatMap_cons

theorem frames_snoc (w : Nat) (ps : List (List UInt8)) (p : List UInt8) :
    frames w (ps ++ [p]) = frames w ps ++ frame w p := by
  rw [frames, List.flatMap_append, List.flatMap_singleton]
  rfl

/-- With a length to write, only the empty sequence frames to
nothing. -/
theorem frames_eq_nil_iff {w : Nat} (hw : 0 < w) {ps : List (List UInt8)} :
    frames w ps = [] ↔ ps = [] := by
  cases ps with
  | nil => exact ⟨fun _ => rfl, fun _ => rfl⟩
  | cons p ps =>
      refine ⟨fun h => ?_, fun h => nomatch h⟩
      have hlen := congrArg List.length h
      rw [frames_cons, List.length_append, frame_length, List.length_nil]
        at hlen
      omega

/-- No frame stands at the front: the length is cut off, or announces
more bytes than are left. -/
def Truncated (w : Nat) (rest : List UInt8) : Prop :=
  rest.length < w ∨ rest.length < w + beNat (rest.take w)

theorem truncated_nil {w : Nat} (hw : 0 < w) : Truncated w [] :=
  Or.inl hw

/-- The length at the front of some bytes, and what it announces. -/
theorem frame_of_slices {w n : Nat} {buf : List UInt8} {a : Nat}
    (hhead : a + w ≤ buf.length) (hn : beNat (slice buf a (a + w)) = n)
    (hbody : a + w + n ≤ buf.length) :
    slice buf a (a + w) ++ slice buf (a + w) (a + w + n)
      = frame w (slice buf (a + w) (a + w + n)) := by
  have hlength : (slice buf (a + w) (a + w + n)).length = n := by
    rw [slice_length hbody, Nat.add_sub_cancel_left]
  have hwidth : (slice buf a (a + w)).length = w := by
    rw [slice_length hhead, Nat.add_sub_cancel_left]
  rw [frame, hlength, ← hn, beBytes_beNat_of_length hwidth]

/-- The length in front of a framed body. -/
theorem slice_frame_length (w : Nat) (pre p rest : List UInt8) :
    slice (pre ++ (frame w p ++ rest)) pre.length (pre.length + w)
      = beBytes w p.length := by
  rw [frame, List.append_assoc]
  exact slice_append_right rfl (by rw [beBytes_length])

/-- The body behind its length. -/
theorem slice_frame_body (w : Nat) (pre p rest : List UInt8) :
    slice (pre ++ (frame w p ++ rest)) (pre.length + w)
      (pre.length + w + p.length) = p := by
  rw [frame, List.append_assoc, ← List.append_assoc]
  exact slice_append_right (by rw [List.length_append, beBytes_length]) rfl

end Bytes
