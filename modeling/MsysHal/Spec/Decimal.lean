import MsysHal.Native.Power
import MsysHal.Spec.Credential

/-!
# Numbers in attribute files

A file that holds the decimal text of a number is read as that number by both clients.

## Key results

- `readInt_decimalFile`: `_read_int`
- `fileI64_decimalFile`: `read_i64_file`
-/

namespace MsysHal

/-- The text of an attribute that holds a number. -/
def decimalText (n : Nat) : List Char := Nat.toDigits 10 n

section Decimal

variable {n : Nat}

theorem decimalText_digit : ∀ c ∈ decimalText n, isAsciiDigit c = true := by
  intro c hc
  have hdigit : c.isDigit = true := Nat.isDigit_of_mem_toDigits (by decide) (by decide) hc
  rw [Char.isDigit, Bool.and_eq_true, decide_eq_true_eq, decide_eq_true_eq] at hdigit
  rw [isAsciiDigit, Bool.and_eq_true, decide_eq_true_eq, decide_eq_true_eq]
  exact hdigit

theorem decimalText_ascii : ∀ c ∈ decimalText n, 48 ≤ c.toNat ∧ c.toNat ≤ 57 := by
  intro c hc
  have hdigit := decimalText_digit c hc
  rw [isAsciiDigit, Bool.and_eq_true, decide_eq_true_eq, decide_eq_true_eq] at hdigit
  exact hdigit

theorem decimalText_cons : ∃ c rest, decimalText n = c :: rest :=
  List.exists_cons_of_ne_nil Nat.toDigits_ne_nil

theorem length_decimalText_le (h : n < 10 ^ 10) : (decimalText n).length ≤ 10 :=
  (Nat.length_toDigits_le_iff (by decide) (by decide)).mpr h

theorem isEmpty_decimalText : (decimalText n).isEmpty = false := by
  obtain ⟨c, rest, hcons⟩ := decimalText_cons (n := n)
  rw [hcons]
  rfl

/-- The number that the digits stand for. -/
theorem digits_decimalText :
    (if (decimalText n).isEmpty || !(decimalText n).all isAsciiDigit then none
    else some (Nat.ofDigitChars 10 (decimalText n) 0)) = some n := by
  rw [isEmpty_decimalText, List.all_eq_true.mpr decimalText_digit, Bool.not_true, Bool.or_self,
    if_neg Bool.false_ne_true, decimalText, Nat.ofDigitChars_toDigits (by decide) (by decide)]

theorem intLiteral_decimalText : intLiteral (decimalText n) = some (n : Int) := by
  have hdigits := digits_decimalText (n := n)
  have hascii := decimalText_ascii (n := n)
  obtain ⟨c, rest, hcons⟩ := decimalText_cons (n := n)
  rw [hcons] at hdigits hascii ⊢
  have hc : c ≠ '-' := by
    rintro rfl
    exact absurd (hascii _ List.mem_cons_self).1 (by decide)
  rw [intLiteral]
  · dsimp only
    rw [hdigits]
    rfl
  · exact fun _ heq => hc (List.cons.inj heq).1

theorem strtol_decimalText : Native.strtol (decimalText n) = some (n : Int) := by
  have hdigits := digits_decimalText (n := n)
  have hascii := decimalText_ascii (n := n)
  obtain ⟨c, rest, hcons⟩ := decimalText_cons (n := n)
  rw [hcons] at hdigits hascii ⊢
  have hlow := (hascii _ List.mem_cons_self).1
  have hspace : Native.isSpaceC c = false := by
    rw [Native.isSpaceC, Bool.or_eq_false_iff, beq_eq_false_iff_ne, Bool.and_eq_false_iff,
      decide_eq_false_iff_not, decide_eq_false_iff_not]
    refine ⟨?_, .inr (by omega)⟩
    rintro rfl
    exact absurd hlow (by decide)
  have hdrop : (c :: rest).dropWhile Native.isSpaceC = c :: rest := by
    rw [List.dropWhile_cons, hspace]
    rfl
  have hne (d : Char) (hd : d.toNat < 48) : c ≠ d := by
    rintro rfl
    omega
  unfold Native.strtol
  rw [hdrop]
  split
  · next heq => exact absurd (List.cons.inj heq).1 (hne '-' (by decide))
  · next heq => exact absurd (List.cons.inj heq).1 (hne '+' (by decide))
  · dsimp only
    rw [hdigits]
    rfl

private theorem strip_decimalText : Python.Text.strip (decimalText n) = decimalText n := by
  have hspace : ∀ c ∈ decimalText n, Python.Text.isSpace c = false := by
    intro c hc
    have hbounds := decimalText_ascii c hc
    refine Native.forall_ascii (P := fun c => 48 ≤ c.toNat ∧ c.toNat ≤ 57 →
      Python.Text.isSpace c = false)
      (by decide) (by omega) hbounds
  obtain ⟨c, rest, hcons⟩ := decimalText_cons (n := n)
  have hdrop : (decimalText n).dropWhile Python.Text.isSpace = decimalText n := by
    rw [hcons] at hspace ⊢
    rw [List.dropWhile_cons, hspace c List.mem_cons_self]
    rfl
  have hrdrop : (decimalText n).rdropWhile Python.Text.isSpace = decimalText n := by
    rw [List.rdropWhile_eq_self_iff]
    intro hne
    rw [hspace _ (List.getLast_mem hne)]
    exact Bool.false_ne_true
  rw [Python.Text.strip, hdrop, hrdrop]

/-- The file of an attribute that holds a number. -/
def decimalFile (n : Nat) : ByteArray := (String.ofList (decimalText n)).toByteArray

theorem data_decimalFile : (decimalFile n).data.toList = (decimalText n).map Native.asciiByte := by
  have hascii : ∀ c ∈ decimalText n, c.toNat < 128 := fun c hc => by
    have := (decimalText_ascii c hc).2
    omega
  rw [decimalFile, String.toByteArray_ofList, List.utf8Encode, List.data_toByteArray,
    List.toList_toArray]
  exact Native.utf8_of_ascii hascii

/-- The characters that the bytes stand for. -/
theorem chars_decimalText :
    ((decimalText n).map Native.asciiByte).map (fun b => Char.ofNat b.toNat) = decimalText n := by
  rw [List.map_map]
  refine (List.map_congr_left fun c hc => ?_).trans (List.map_id _)
  have hbounds := decimalText_ascii c hc
  rw [Function.comp_apply, Native.toNat_asciiByte (by omega), Char.ofNat_toNat]
  rfl

theorem readInt_decimalFile {minimum maximum : Int} (hn : n < 10 ^ 10) (hlow : minimum ≤ n)
    (hhigh : n ≤ maximum) : readInt minimum maximum (some (decimalFile n)) = some (n : Int) := by
  have hlength := length_decimalText_le hn
  have hsize : (decimalFile n).size = (decimalText n).length := by
    have := congrArg List.length (data_decimalFile (n := n))
    rwa [List.length_map, Array.length_toList] at this
  have hnul : (decimalFile n).data.toList.contains 0 = false := by
    rw [data_decimalFile, List.contains_eq_mem, decide_eq_false_iff_not]
    intro hmem
    obtain ⟨c, hc, hzero⟩ := List.mem_map.mp hmem
    have hbounds := decimalText_ascii c hc
    have htoNat := Native.toNat_asciiByte (c := c) (by omega)
    rw [hzero] at htoNat
    have hz : (0 : UInt8).toNat = 0 := rfl
    omega
  have htext : readText 64 (some (decimalFile n)) = some (String.ofList (decimalText n)) := by
    have hdecode : String.fromUTF8? (decimalFile n) = some (String.ofList (decimalText n)) :=
      Python.fromUTF8?_toUTF8 _
    rw [readText, hnul, hsize, decide_eq_false (by omega), Bool.or_self, if_neg Bool.false_ne_true,
      hdecode, Option.map_some, String.toList_ofList, strip_decimalText]
  rw [readInt, htext, Option.bind_eq_bind, Option.bind_some, String.toList_ofList,
    intLiteral_decimalText, Option.bind_eq_bind, Option.bind_some, if_neg (by omega)]

theorem fileI64_decimalFile {minimum maximum : Int} (hn : n < 10 ^ 10) (hlow : minimum ≤ n)
    (hhigh : n ≤ maximum) :
    Native.fileI64 minimum maximum (some (decimalFile n).data.toList) = some (n : Int) := by
  have hlength := length_decimalText_le hn
  have hbounds := decimalText_ascii (n := n)
  have htake : (decimalText n).takeWhile (· ≠ '\x00') = decimalText n := by
    rw [List.takeWhile_eq_self_iff]
    intro c hc
    rw [decide_eq_true_eq]
    rintro rfl
    exact absurd (hbounds _ hc).1 (by decide)
  have hdrop : (decimalText n).rdropWhile Native.isSpaceC = decimalText n := by
    rw [List.rdropWhile_eq_self_iff]
    intro hne
    exact Native.forall_ascii (P := fun c => 48 ≤ c.toNat ∧ c.toNat ≤ 57 →
      ¬ Native.isSpaceC c = true)
      (by decide) (by have := hbounds _ (List.getLast_mem hne); omega)
        (hbounds _ (List.getLast_mem hne))
  have hprintable : (decimalText n).all (fun c => 0x20 ≤ c.toNat && c.toNat ≤ 0x7e) = true := by
    rw [List.all_eq_true]
    intro c hc
    have := hbounds c hc
    rw [Bool.and_eq_true, decide_eq_true_eq, decide_eq_true_eq]
    omega
  have htext : Native.fileText 64 (some (decimalFile n).data.toList) = some (decimalText n) := by
    rw [Native.fileText, data_decimalFile, List.take_of_length_le (by rw [List.length_map]; omega),
      chars_decimalText, hdrop, htake, isEmpty_decimalText, decide_eq_false (by omega),
      Bool.or_self, if_neg Bool.false_ne_true, if_pos hprintable]
  rw [Native.fileI64, htext, Option.bind_some, Native.parseBounded, strtol_decimalText,
    Option.filter_some, decide_eq_true hlow, decide_eq_true hhigh]
  rfl

end Decimal

end MsysHal
