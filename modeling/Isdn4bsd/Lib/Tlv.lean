import Mathlib.Data.List.Basic
import Mathlib.Order.Basic

/-!
# Elements with a length octet

An element is a single octet whose highest bit is set, or an identifier, the length of what follows, and
that many octets.  A zero ends all elements.

* `Element`, `Element.bytes`, `Element.Valid` : an element, and how it is written.
* `split` : the elements of some bytes; each length octet has to be exact.
* `split_bytes` : **elements that are written** one behind the other are read back.

## Reading

An identifier whose highest bit is clear is followed by a length, and a reader that does not know the
identifier can still go on behind the element.  So `split` needs no table.  It has a result only if each
length leads to where another element begins, or to the end: bytes that were written with a wrong length
anywhere have no reading at all, or another one than was meant.

A zero is no identifier.  It ends the elements, as does the end of the bytes, so what was written may stand in a buffer
that is longer than it and filled with zeros.

`split` is given how many elements there may be at most, since each takes at least one byte; the length of
the bytes is enough (`length_le_bytes`).
-/

set_option autoImplicit false

namespace Isdn4bsd
namespace Tlv

inductive Element where
  | single (id : UInt8)
  | long (id : UInt8) (content : List UInt8)
  deriving DecidableEq, Repr

namespace Element

def id : Element → UInt8
  | single id => id
  | long id _ => id

def bytes : Element → List UInt8
  | single id => [id]
  | long id content => id :: UInt8.ofNat content.length :: content

/-- The identifier tells which kind of element it is, and the length fits into its octet. -/
def Valid : Element → Prop
  | single id => 0x80 ≤ id.toNat
  | long id content => 0 < id.toNat ∧ id.toNat < 0x80 ∧ content.length < 256

theorem Valid.id_ne {e : Element} (h : e.Valid) : e.id.toNat ≠ 0 := by
  cases e with
  | single id =>
    have h : 0x80 ≤ id.toNat := h
    rw [Element.id]
    omega
  | long id content => exact Nat.ne_of_gt h.1

theorem length_bytes_pos (e : Element) : 0 < e.bytes.length := by
  cases e with
  | single id => exact Nat.one_pos
  | long id content => exact Nat.succ_pos _

end Element

/-- All elements, one behind the other. -/
def bytes (es : List Element) : List UInt8 := es.flatMap Element.bytes

theorem bytes_cons (e : Element) (es : List Element) : bytes (e :: es) = e.bytes ++ bytes es := rfl

theorem length_le_bytes (es : List Element) : es.length ≤ (bytes es).length := by
  induction es with
  | nil => exact Nat.le_refl _
  | cons e es ih =>
    have hpos := e.length_bytes_pos
    rw [bytes_cons, List.length_append, List.length_cons]
    omega

/-- As many octets as the first one tells, and what is behind them. -/
def takeLong : List UInt8 → Option (List UInt8 × List UInt8)
  | [] => none
  | len :: rest =>
    if rest.length < len.toNat then none else some (rest.take len.toNat, rest.drop len.toNat)

/-- The elements of some bytes, at most so many. -/
def split : ℕ → List UInt8 → Option (List Element)
  | 0, _ => none
  | _ + 1, [] => some []
  | fuel + 1, c :: rest =>
    if c.toNat = 0 then some []
    else if 0x80 ≤ c.toNat then (split fuel rest).map fun es => .single c :: es
    else (takeLong rest).bind fun p => (split fuel p.2).map fun es => .long c p.1 :: es

theorem takeLong_append {content : List UInt8} (h : content.length < 256) (rest : List UInt8) :
    takeLong (UInt8.ofNat content.length :: (content ++ rest)) = some (content, rest) := by
  have hoctet : (UInt8.ofNat content.length).toNat = content.length := UInt8.toNat_ofNat_of_lt' h
  rw [takeLong, hoctet, if_neg (by rw [List.length_append]; omega), List.take_left, List.drop_left]

/-- **What was written** is read back. -/
theorem split_bytes {es : List Element} (h : ∀ e ∈ es, e.Valid) {fuel : ℕ} (hfuel : es.length < fuel) :
    split fuel (bytes es) = some es := by
  induction es generalizing fuel with
  | nil =>
    obtain ⟨fuel, rfl⟩ := Nat.exists_eq_add_one_of_ne_zero (Nat.ne_of_gt hfuel)
    rfl
  | cons e es ih =>
    obtain ⟨fuel, rfl⟩ := Nat.exists_eq_add_one_of_ne_zero (Nat.ne_of_gt (Nat.zero_lt_of_lt hfuel))
    have hrest := ih (fun x hx => h x (List.mem_cons_of_mem e hx)) (Nat.lt_of_succ_lt_succ hfuel)
    have he := h e List.mem_cons_self
    rw [bytes_cons]
    cases e with
    | single id =>
      have he : 0x80 ≤ id.toNat := he
      rw [Element.bytes, List.singleton_append, split, if_neg (by omega), if_pos he, hrest]
      rfl
    | long id content =>
      obtain ⟨hpos, hlt, hlen⟩ := he
      rw [Element.bytes, List.cons_append, List.cons_append, split, if_neg (by omega),
        if_neg (by omega), takeLong_append hlen, Option.bind_some, hrest]
      rfl

/-- Where the first element with an identifier is, or 0. -/
def position (id : ℕ) : ℕ → List Element → ℕ
  | _, [] => 0
  | offset, e :: es => if e.id.toNat = id then offset else position id (offset + e.bytes.length) es

end Tlv
end Isdn4bsd
