import CciDaemon.Foundations.CString

/-!
# Foundations - Words in a byte buffer

A word of 32 bits as four bytes of memory, least significant byte first.

Main results:

- Theorem `readWord_word`: a word is read back from where it was laid.
-/

namespace CString

/-- The bytes of a word. -/
def word (w : UInt32) : Bytes :=
  [UInt8.ofNat w.toNat, UInt8.ofNat (w.toNat / 256), UInt8.ofNat (w.toNat / 65536),
    UInt8.ofNat (w.toNat / 16777216)]

/-- The word at position `p`; undefined when it does not lie inside of the buffer. -/
def readWord (buf : Bytes) (p : Nat) : Option UInt32 :=
  match buf.drop p with
  | a :: b :: c :: d :: _ =>
      some (UInt32.ofNat (a.toNat + 256 * b.toNat + 65536 * c.toNat + 16777216 * d.toNat))
  | _ => none

@[simp] theorem word_length (w : UInt32) : (word w).length = 4 := rfl

/-- A position behind a beginning of the buffer. -/
theorem readWord_append_add (before buf : Bytes) (p : Nat) :
    readWord (before ++ buf) (before.length + p) = readWord buf p := by
  rw [readWord, List.drop_append, List.drop_eq_nil_of_le (Nat.le_add_right _ _),
    Nat.add_sub_cancel_left, List.nil_append, readWord]

/-- A word is read back. -/
theorem readWord_word (w : UInt32) (buf : Bytes) : readWord (word w ++ buf) 0 = some w := by
  have hlt := w.toNat_lt
  simp only [readWord, word, List.drop_zero, List.cons_append, List.nil_append,
    UInt8.toNat_ofNat', Option.some.injEq]
  apply UInt32.toNat_inj.mp
  rw [UInt32.toNat_ofNat']
  omega

/-- So is a word behind others. -/
theorem readWord_word_add (w : UInt32) (buf : Bytes) (p : Nat) :
    readWord (word w ++ buf) (4 + p) = readWord buf p :=
  readWord_append_add (word w) buf p

end CString
