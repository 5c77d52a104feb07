import RoboTele.Bytes.BigEndian
import Mathlib.Data.List.Basic

/-!
# Self-delimiting byte formats

A `Format` of a type writes its values as bytes and reads them back, whatever
follows.  The law is a field, so a format built from others is right by
construction.

* `byte` and `word` are the fixed-width ones.
* `iso` carries a format over to a type whose values are coded by another's.
* `pair`, `option` and `list` put formats together.

A record is an `iso` of nested pairs.
-/

/-- Bytes for the values of `α`, which say themselves where they end. -/
structure Format (α : Type*) where
  write : α → List UInt8
  read : List UInt8 → Option (α × List UInt8)
  /-- What was written is read back, and what follows is left. -/
  read_write : ∀ a rest, read (write a ++ rest) = some (a, rest)

namespace Format

variable {α β : Type*}

/-- The value at the front, or `default` if there is none. -/
def readD (c : Format α) (default : α) (bs : List UInt8) : α :=
  ((c.read bs).map Prod.fst).getD default

@[simp] theorem readD_write (c : Format α) (default a : α) : c.readD default (c.write a) = a := by
  have h := c.read_write a []
  rw [List.append_nil] at h
  simp [readD, h]

/-! ## Words -/

/-- One byte as it is. -/
def byte : Format UInt8 where
  write b := [b]
  read
    | [] => none
    | b :: rest => some (b, rest)
  read_write _ _ := rfl

/-- A number below `256 ^ w` in `w` bytes. -/
def word (w : Nat) (toNat : α → Nat) (ofNat : Nat → α) (hlt : ∀ a, toNat a < 256 ^ w)
    (hof : ∀ a, ofNat (toNat a) = a) : Format α where
  write a := BigEndian.encode w (toNat a)
  read bs :=
    if bs.length < w then none else some (ofNat (BigEndian.decode (bs.take w)), bs.drop w)
  read_write a rest := by
    have hlen := BigEndian.length_encode w (toNat a)
    rw [if_neg (by simp [hlen]), List.take_left' hlen, List.drop_left' hlen,
      BigEndian.decode_encode_of_lt (hlt a), hof]

/-- A word of two bytes. -/
def word16 : Format UInt16 := word 2 UInt16.toNat UInt16.ofNat UInt16.toNat_lt fun _ => by simp

/-- A word of four bytes. -/
def word32 : Format UInt32 := word 4 UInt32.toNat UInt32.ofNat UInt32.toNat_lt fun _ => by simp

/-- A word of eight bytes. -/
def word64 : Format UInt64 := word 8 UInt64.toNat UInt64.ofNat UInt64.toNat_lt fun _ => by simp

/-- The values of `β` written as values of `α`. -/
def iso (c : Format α) (toCode : β → α) (ofCode : α → β) (h : ∀ b, ofCode (toCode b) = b) :
    Format β where
  write b := c.write (toCode b)
  read bs := (c.read bs).map fun (a, rest) => (ofCode a, rest)
  read_write b rest := by simp [c.read_write, h]

/-- A byte that is zero for `false`. -/
def bool : Format Bool :=
  byte.iso (fun b => if b then 1 else 0) (· == 1) fun b => by cases b <;> rfl

/-! ## Pairs and options -/

/-- One value after the other. -/
def pair (c : Format α) (d : Format β) : Format (α × β) where
  write x := c.write x.1 ++ d.write x.2
  read bs := (c.read bs).bind fun (a, bs) => (d.read bs).map fun (b, bs) => ((a, b), bs)
  read_write x rest := by simp [List.append_assoc, c.read_write, d.read_write]

/-- A flag, and the value if there is one. -/
def option (c : Format α) : Format (Option α) where
  write
    | none => [0]
    | some a => 1 :: c.write a
  read
    | [] => none
    | flag :: bs =>
        if flag = 0 then some (none, bs) else (c.read bs).map fun (a, rest) => (some a, rest)
  read_write
    | none, _ => rfl
    | some a, rest => by simp [c.read_write]

/-! ## Lists -/

/-- The leading ones, up to a zero. -/
def readCount : List UInt8 → Option (Nat × List UInt8)
  | [] => none
  | b :: bs => if b = 0 then some (0, bs) else (readCount bs).map fun (n, rest) => (n + 1, rest)

theorem readCount_replicate (n : Nat) (rest : List UInt8) :
    readCount (List.replicate n 1 ++ 0 :: rest) = some (n, rest) := by
  induction n with
  | zero => rfl
  | succ n ih => simp [List.replicate_succ, readCount, ih]

/-- So many values one after the other. -/
def readMany (c : Format α) : Nat → List UInt8 → Option (List α × List UInt8)
  | 0, bs => some ([], bs)
  | n + 1, bs =>
      (c.read bs).bind fun (a, bs) => (readMany c n bs).map fun (l, bs) => (a :: l, bs)

theorem readMany_flatMap (c : Format α) (l : List α) (rest : List UInt8) :
    readMany c l.length (l.flatMap c.write ++ rest) = some (l, rest) := by
  induction l with
  | nil => rfl
  | cons a l ih => simp [readMany, List.append_assoc, c.read_write, ih]

/-- The length in unary, and the values. -/
def list (c : Format α) : Format (List α) where
  write l := List.replicate l.length 1 ++ 0 :: l.flatMap c.write
  read bs := (readCount bs).bind fun (n, bs) => readMany c n bs
  read_write l rest := by
    rw [List.append_assoc, List.cons_append, readCount_replicate]
    exact readMany_flatMap c l rest

/-- The characters, each by its code point. -/
def string : Format String :=
  (list (word32.iso Char.val (fun v => Char.ofNat v.toNat) Char.ofNat_toNat)).iso String.toList
    String.ofList fun _ => String.ofList_toList

end Format
