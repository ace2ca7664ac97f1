import Mathlib.Data.List.TakeWhile
import Mathlib.Tactic

/-! Text formats shared by file names and XML values: decimal numbers, padding and
splitting at separators. Characters are kept in lists, where prefixes and suffixes
are plain list operations. -/

namespace Imflib.Text

/-- Decimal digits of a natural number, without leading zeros. -/
def digits (n : Nat) : List Char := Nat.toDigits 10 n

def decimal (n : Int) : List Char :=
  if n < 0 then '-' :: digits n.natAbs else digits n.natAbs

def readDigits (text : List Char) : Option Nat :=
  if text ≠ [] ∧ text.all Char.isDigit then some (Nat.ofDigitChars 10 text 0) else none

def readDecimal : List Char → Option Int
  | '-' :: text => (readDigits text).map fun n : Nat => -(n : Int)
  | '+' :: text => (readDigits text).map fun n : Nat => (n : Int)
  | text => (readDigits text).map fun n : Nat => (n : Int)

def readInt32 (text : List Char) : Option Int32 :=
  (readDecimal text).bind fun value =>
    if -2 ^ 31 ≤ value ∧ value < 2 ^ 31 then some (Int32.ofInt value) else none

def hexByte (byte : UInt8) : List Char :=
  [(byte.toNat / 16).digitChar, (byte.toNat % 16).digitChar]

def hexText (bytes : List UInt8) : List Char := bytes.flatMap hexByte

def isSpace (c : Char) : Bool :=
  c = ' ' || c = '\t' || c = '\n' || c = '\x0b' || c = '\x0c' || c = '\r'

def trim (text : List Char) : List Char :=
  ((text.dropWhile isSpace).reverse.dropWhile isSpace).reverse

def padLeft (width : Nat) (fill : Char) (text : List Char) : List Char :=
  List.replicate (width - text.length) fill ++ text

def splitOn (separator : Char) : List Char → List (List Char)
  | [] => [[]]
  | c :: text =>
      if c = separator then [] :: splitOn separator text
      else match splitOn separator text with
        | [] => [[c]]
        | piece :: pieces => (c :: piece) :: pieces

def contains (needle text : List Char) : Bool := text.tails.any fun tail => needle.isPrefixOf tail

/-- What stands behind the last separator, the whole text if there is none. -/
def afterLast (separator : Char) (text : List Char) : List Char :=
  (text.reverse.takeWhile (· ≠ separator)).reverse

def beforeLast (separator : Char) (text : List Char) : Option (List Char) :=
  match text.reverse.dropWhile (· ≠ separator) with
  | [] => none
  | _ :: front => some front.reverse

theorem digits_ne_nil (n : Nat) : digits n ≠ [] := Nat.toDigits_ne_nil

theorem digits_of_lt_ten {n : Nat} (small : n < 10) : digits n = [n.digitChar] :=
  Nat.toDigits_of_lt_base small

theorem digits_of_lt_hundred {n : Nat} (least : 10 ≤ n) (most : n < 100) :
    digits n = [(n / 10).digitChar, (n % 10).digitChar] := by
  have high : n / 10 < 10 := by omega
  rw [digits, Nat.toDigits_of_base_le (by decide) least, Nat.toDigits_of_lt_base high]
  rfl

theorem isDigit_of_mem_digits {n : Nat} {c : Char} (member : c ∈ digits n) : c.isDigit :=
  Nat.isDigit_of_mem_toDigits (by decide) (by decide) member

theorem readDigits_digits (n : Nat) : readDigits (digits n) = some n := by
  have allDigits : (digits n).all Char.isDigit = true :=
    List.all_eq_true.mpr fun c member => isDigit_of_mem_digits member
  rw [readDigits, if_pos ⟨digits_ne_nil n, allDigits⟩, digits, Nat.ofDigitChars_ten_toDigits]

theorem readDecimal_of_digits {text : List Char} (onlyDigits : ∀ c ∈ text, c.isDigit) :
    readDecimal text = (readDigits text).map fun n : Nat => (n : Int) := by
  unfold readDecimal
  split
  · have sign := onlyDigits '-' List.mem_cons_self
    exact absurd sign (by decide)
  · have sign := onlyDigits '+' List.mem_cons_self
    exact absurd sign (by decide)
  · rfl

@[simp] theorem readDecimal_decimal (n : Int) : readDecimal (decimal n) = some n := by
  unfold decimal
  split
  · rename_i negative
    have value : -(n.natAbs : Int) = n := by omega
    rw [readDecimal, readDigits_digits, Option.map_some, value]
  · rename_i nonnegative
    have value : (n.natAbs : Int) = n := by omega
    rw [readDecimal_of_digits fun c member => isDigit_of_mem_digits member, readDigits_digits,
      Option.map_some, value]

@[simp] theorem readInt32_decimal (n : Int32) : readInt32 (decimal n.toInt) = some n := by
  have fits : -2 ^ 31 ≤ n.toInt ∧ n.toInt < 2 ^ 31 := ⟨n.le_toInt, n.toInt_lt⟩
  rw [readInt32, readDecimal_decimal, Option.bind_some, if_pos fits, Int32.ofInt_toInt]

theorem readDecimal_of_readInt32 {text : List Char} {value : Int32}
    (read : readInt32 text = some value) : readDecimal text = some value.toInt := by
  obtain ⟨n, number, fitted⟩ := Option.bind_eq_some_iff.mp read
  split at fitted
  · rename_i fits
    rw [← Option.some.inj fitted, Int32.toInt_ofInt_of_le fits.1 fits.2]
    exact number
  · cases fitted

theorem readInt32_of_readDecimal {text : List Char} {n : Int} (number : readDecimal text = some n)
    (least : -2 ^ 31 ≤ n) (most : n < 2 ^ 31) : readInt32 text = some (Int32.ofInt n) := by
  rw [readInt32, number, Option.bind_some, if_pos ⟨least, most⟩]

theorem readDecimal_unsigned {c : Char} {text : List Char} (notMinus : c ≠ '-') (notPlus : c ≠ '+') :
    readDecimal (c :: text) = (readDigits (c :: text)).map fun n : Nat => (n : Int) := by
  unfold readDecimal
  split
  · rename_i same
    exact absurd (List.cons.inj same).1 notMinus
  · rename_i same
    exact absurd (List.cons.inj same).1 notPlus
  · rfl

theorem digitChar_ne_sign {n : Nat} (digit : n < 16) : n.digitChar ≠ '-' ∧ n.digitChar ≠ '+' := by
  interval_cases n <;> decide

/-- Two hexadecimal digits that are read as a decimal number. -/
theorem readInt32_hexByte (byte : UInt8) : readInt32 (hexByte byte) =
    if byte.toNat / 16 < 10 ∧ byte.toNat % 16 < 10 then
      some (Int32.ofInt (10 * (byte.toNat / 16) + byte.toNat % 16 : Nat))
    else none := by
  have high : byte.toNat / 16 < 16 := by
    have bound := byte.toNat_lt
    omega
  obtain ⟨notMinus, notPlus⟩ := digitChar_ne_sign high
  rw [readInt32, hexByte, readDecimal_unsigned notMinus notPlus, readDigits]
  simp only [ne_eq, reduceCtorEq, not_false_eq_true, true_and, List.all_cons, List.all_nil,
    Bool.and_true, Nat.isDigit_digitChar, Bool.and_eq_true, decide_eq_true_eq]
  split
  · rename_i decimal
    have value : Nat.ofDigitChars 10 [(byte.toNat / 16).digitChar, (byte.toNat % 16).digitChar] 0 =
        10 * (byte.toNat / 16) + byte.toNat % 16 := by
      rw [Nat.ofDigitChars_cons_digitChar_of_lt_ten decimal.1,
        Nat.ofDigitChars_cons_digitChar_of_lt_ten decimal.2, Nat.ofDigitChars_nil]
      omega
    rw [value, Option.map_some, Option.bind_some, if_pos]
    omega
  · rfl

theorem mem_decimal {n : Int} {c : Char} (member : c ∈ decimal n) : c = '-' ∨ c.isDigit := by
  unfold decimal at member
  split at member
  · rcases List.mem_cons.mp member with sign | digit
    · exact Or.inl sign
    · exact Or.inr (isDigit_of_mem_digits digit)
  · exact Or.inr (isDigit_of_mem_digits member)

theorem not_mem_decimal {n : Int} {c : Char} (notSign : c ≠ '-') (notDigit : c.isDigit = false) :
    c ∉ decimal n := by
  intro member
  rcases mem_decimal member with sign | digit
  · exact notSign sign
  · simp [notDigit] at digit

theorem isSpace_of_mem_decimal {n : Int} {c : Char} (member : c ∈ decimal n) :
    isSpace c = false := by
  rw [Bool.eq_false_iff]
  intro space
  simp only [isSpace, Bool.or_eq_true, decide_eq_true_eq] at space
  rcases mem_decimal member with rfl | digit
  · revert space
    decide
  · rcases space with ((((rfl | rfl) | rfl) | rfl) | rfl) | rfl <;> exact absurd digit (by decide)

theorem trim_of_no_space {text : List Char} (clean : ∀ c ∈ text, isSpace c = false) :
    trim text = text := by
  have dropped (cs : List Char) (noSpace : ∀ c ∈ cs, isSpace c = false) :
      cs.dropWhile isSpace = cs := by
    cases cs with
    | nil => rfl
    | cons c rest => simp [noSpace c List.mem_cons_self]
  rw [trim, dropped text clean, dropped text.reverse, List.reverse_reverse]
  intro c member
  exact clean c (List.mem_reverse.mp member)

@[simp] theorem trim_decimal (n : Int) : trim (decimal n) = decimal n :=
  trim_of_no_space fun _ member => isSpace_of_mem_decimal member

theorem ofDigitChars_padLeft (width n : Nat) :
    Nat.ofDigitChars 10 (padLeft width '0' (digits n)) 0 = n := by
  simp [padLeft, Nat.ofDigitChars_append, digits]

theorem padLeft_digits_injective (width : Nat) :
    Function.Injective fun n => padLeft width '0' (digits n) := by
  intro first second same
  have values := congrArg (fun text => Nat.ofDigitChars 10 text 0) same
  simpa only [ofDigitChars_padLeft] using values

theorem isDigit_of_mem_padLeft {width n : Nat} {c : Char}
    (member : c ∈ padLeft width '0' (digits n)) : c.isDigit := by
  rcases List.mem_append.mp member with zero | digit
  · rw [List.eq_of_mem_replicate zero]
    decide
  · exact isDigit_of_mem_digits digit

theorem length_padLeft (width : Nat) (fill : Char) {text : List Char} (fits : text.length ≤ width) :
    (padLeft width fill text).length = width := by
  rw [padLeft, List.length_append, List.length_replicate]
  omega

theorem toNat_of_isDigit {c : Char} (digit : c.isDigit) : 48 ≤ c.toNat ∧ c.toNat ≤ 57 := by
  simp only [Char.isDigit, Bool.and_eq_true, decide_eq_true_eq, UInt32.le_iff_toNat_le] at digit
  exact digit

theorem ofDigitChars_lt {text : List Char} (onlyDigits : ∀ c ∈ text, c.isDigit) :
    Nat.ofDigitChars 10 text 0 < 10 ^ text.length := by
  induction text with
  | nil => exact Nat.one_pos
  | cons c rest ih =>
      have below := ih fun other member => onlyDigits other (List.mem_cons_of_mem _ member)
      have digit := toNat_of_isDigit (onlyDigits c List.mem_cons_self)
      have value : c.toNat - '0'.toNat ≤ 9 := Nat.sub_le_of_le_add digit.2
      have scaled := Nat.mul_le_mul_left (10 ^ rest.length) value
      rw [Nat.ofDigitChars_cons, Nat.ofDigitChars_eq_ofDigitChars_zero, List.length_cons, Nat.pow_succ,
        Nat.mul_zero, Nat.zero_add]
      omega

theorem lt_of_ofDigitChars_lt {first second : List Char} (firstDigits : ∀ c ∈ first, c.isDigit)
    (secondDigits : ∀ c ∈ second, c.isDigit) (same : first.length = second.length)
    (less : Nat.ofDigitChars 10 first 0 < Nat.ofDigitChars 10 second 0) : first < second := by
  induction first generalizing second with
  | nil =>
      rw [List.length_nil] at same
      rw [List.length_eq_zero_iff.mp same.symm] at less
      exact absurd less (Nat.lt_irrefl _)
  | cons c rest ih =>
      cases second with
      | nil => cases same
      | cons d tail =>
          have restDigits : ∀ c ∈ rest, c.isDigit := fun other member =>
            firstDigits other (List.mem_cons_of_mem _ member)
          have tailDigits : ∀ c ∈ tail, c.isDigit := fun other member =>
            secondDigits other (List.mem_cons_of_mem _ member)
          have lengths : rest.length = tail.length := Nat.succ.inj same
          have restBelow := ofDigitChars_lt restDigits
          have tailBelow := ofDigitChars_lt tailDigits
          rw [Nat.ofDigitChars_cons, Nat.ofDigitChars_cons, Nat.ofDigitChars_eq_ofDigitChars_zero,
            @Nat.ofDigitChars_eq_ofDigitChars_zero tail, lengths, Nat.mul_zero, Nat.zero_add,
            Nat.zero_add] at less
          rw [lengths] at restBelow
          rw [List.cons_lt_cons_iff]
          rcases Nat.lt_trichotomy c.toNat d.toNat with below | equal | above
          · exact Or.inl below
          · have heads : c = d := Char.toNat_inj.mp equal
            subst heads
            exact Or.inr ⟨rfl, ih restDigits tailDigits lengths (by omega)⟩
          · -- A greater first digit makes the whole number greater.
            have cDigit := toNat_of_isDigit (firstDigits c List.mem_cons_self)
            have dDigit := toNat_of_isDigit (secondDigits d List.mem_cons_self)
            have zero : '0'.toNat = 48 := rfl
            have step : d.toNat - '0'.toNat + 1 ≤ c.toNat - '0'.toNat := by omega
            have scaled := Nat.mul_le_mul_left (10 ^ tail.length) step
            rw [Nat.mul_add, Nat.mul_one] at scaled
            omega

theorem append_lt_append {first second : List Char} (same : first.length = second.length)
    (less : first < second) (firstEnd secondEnd : List Char) :
    first ++ firstEnd < second ++ secondEnd := by
  induction first generalizing second with
  | nil =>
      rw [List.length_eq_zero_iff.mp same.symm] at less
      exact absurd less (List.lt_irrefl _)
  | cons c rest ih =>
      cases second with
      | nil => cases same
      | cons d tail =>
          rw [List.cons_lt_cons_iff] at less
          rw [List.cons_append, List.cons_append, List.cons_lt_cons_iff]
          exact less.imp_right fun heads => ⟨heads.1, ih (Nat.succ.inj same) heads.2⟩

theorem append_lt_append_left_iff (front : List Char) {first second : List Char} :
    front ++ first < front ++ second ↔ first < second := by
  induction front with
  | nil => exact Iff.rfl
  | cons c front ih =>
      rw [List.cons_append, List.cons_append, List.cons_lt_cons_iff]
      exact (or_iff_right (Char.lt_irrefl c)).trans ((and_iff_right rfl).trans ih)

theorem padLeft_digits_lt {width m n : Nat} (positive : 0 < width) (less : m < n)
    (fits : n < 10 ^ width) : padLeft width '0' (digits m) < padLeft width '0' (digits n) := by
  have fitsText {k : Nat} (small : k < 10 ^ width) : (digits k).length ≤ width :=
    (Nat.length_toDigits_le_iff (by decide) positive).mpr small
  have lengths : (padLeft width '0' (digits m)).length = (padLeft width '0' (digits n)).length := by
    rw [length_padLeft width '0' (fitsText (less.trans fits)), length_padLeft width '0' (fitsText fits)]
  refine lt_of_ofDigitChars_lt (fun c => isDigit_of_mem_padLeft) (fun c => isDigit_of_mem_padLeft)
    lengths ?_
  rwa [ofDigitChars_padLeft, ofDigitChars_padLeft]

theorem splitOn_of_not_mem {separator : Char} {text : List Char} (absent : separator ∉ text) :
    splitOn separator text = [text] := by
  induction text with
  | nil => rfl
  | cons c text ih =>
      have other : c ≠ separator := fun same => absent (same ▸ List.mem_cons_self)
      have rest : separator ∉ text := fun member => absent (List.mem_cons_of_mem _ member)
      simp [splitOn, other, ih rest]

theorem splitOn_append {separator : Char} {front : List Char} (back : List Char)
    (absent : separator ∉ front) :
    splitOn separator (front ++ separator :: back) = front :: splitOn separator back := by
  induction front with
  | nil => simp [splitOn]
  | cons c front ih =>
      have other : c ≠ separator := fun same => absent (same ▸ List.mem_cons_self)
      have rest : separator ∉ front := fun member => absent (List.mem_cons_of_mem _ member)
      simp [splitOn, other, ih rest]

theorem takeWhile_append_separator {separator : Char} {front : List Char} (back : List Char)
    (absent : separator ∉ front) :
    (front ++ separator :: back).takeWhile (· ≠ separator) = front := by
  rw [List.takeWhile_append_of_pos]
  · simp
  · intro c member
    exact decide_eq_true fun same => absent (same ▸ member)

theorem dropWhile_append_separator {separator : Char} {front : List Char} (back : List Char)
    (absent : separator ∉ front) :
    (front ++ separator :: back).dropWhile (· ≠ separator) = separator :: back := by
  rw [List.dropWhile_append_of_pos]
  · simp
  · intro c member
    exact decide_eq_true fun same => absent (same ▸ member)

theorem append_separator_inj {separator : Char} {front other back rest : List Char}
    (absent : separator ∉ front) (absent' : separator ∉ other)
    (same : front ++ separator :: back = other ++ separator :: rest) : front = other ∧ back = rest := by
  have before := congrArg (List.takeWhile (· ≠ separator)) same
  have behind := congrArg (List.dropWhile (· ≠ separator)) same
  rw [takeWhile_append_separator back absent, takeWhile_append_separator rest absent'] at before
  rw [dropWhile_append_separator back absent, dropWhile_append_separator rest absent'] at behind
  exact ⟨before, (List.cons.inj behind).2⟩

theorem afterLast_append {separator : Char} (front : List Char) {back : List Char}
    (absent : separator ∉ back) : afterLast separator (front ++ separator :: back) = back := by
  have reversed : (front ++ separator :: back).reverse =
      back.reverse ++ separator :: front.reverse := by simp
  rw [afterLast, reversed, takeWhile_append_separator _ (by simpa using absent),
    List.reverse_reverse]

theorem afterLast_of_not_mem {separator : Char} {text : List Char} (absent : separator ∉ text) :
    afterLast separator text = text := by
  have whole : text.reverse.takeWhile (· ≠ separator) = text.reverse :=
    List.takeWhile_eq_self_iff.mpr fun c member =>
      decide_eq_true fun same => absent (same ▸ List.mem_reverse.mp member)
  rw [afterLast, whole, List.reverse_reverse]

theorem afterLast_append_of_not_mem {separator : Char} (front : List Char) {back : List Char}
    (absent : separator ∉ back) :
    afterLast separator (front ++ back) = afterLast separator front ++ back := by
  have behind : ∀ c ∈ back.reverse, decide (c ≠ separator) = true := fun c member =>
    decide_eq_true fun same => absent (same ▸ List.mem_reverse.mp member)
  rw [afterLast, List.reverse_append, List.takeWhile_append_of_pos behind, List.reverse_append,
    List.reverse_reverse, afterLast]

theorem afterLast_behind (separator : Char) (front back : List Char) :
    afterLast separator (front ++ separator :: back) = afterLast separator back := by
  by_cases absent : separator ∈ back
  · have reversed : (front ++ separator :: back).reverse =
        back.reverse ++ separator :: front.reverse := by simp
    have stops : (back.reverse.takeWhile (· ≠ separator)).length ≠ back.reverse.length := by
      intro whole
      have all := List.takeWhile_eq_self_iff.mp ((List.takeWhile_prefix _).eq_of_length whole)
      simpa using all separator (List.mem_reverse.mpr absent)
    rw [afterLast, reversed, List.takeWhile_append, if_neg stops, afterLast]
  · rw [afterLast_append front absent, afterLast_of_not_mem absent]

theorem beforeLast_append {separator : Char} (front : List Char) {back : List Char}
    (absent : separator ∉ back) :
    beforeLast separator (front ++ separator :: back) = some front := by
  have reversed : (front ++ separator :: back).reverse =
      back.reverse ++ separator :: front.reverse := by simp
  rw [beforeLast, reversed, dropWhile_append_separator _ (by simpa using absent)]
  simp

theorem not_mem_afterLast (separator : Char) (text : List Char) :
    separator ∉ afterLast separator text := by
  intro member
  have taken := List.mem_takeWhile_imp (List.mem_reverse.mp member)
  simp at taken

theorem beforeLast_afterLast {separator : Char} {text front : List Char}
    (split : beforeLast separator text = some front) :
    text = front ++ separator :: afterLast separator text := by
  unfold beforeLast at split
  cases dropped : text.reverse.dropWhile (· ≠ separator) with
  | nil =>
      rw [dropped] at split
      cases split
  | cons c rest =>
      have atHead : c = separator := by
        have failing := List.head?_dropWhile_not (· ≠ separator) text.reverse
        rw [dropped] at failing
        simpa using failing
      rw [dropped] at split
      cases Option.some.inj split
      have whole := List.takeWhile_append_dropWhile (p := (· ≠ separator)) (l := text.reverse)
      rw [dropped, atHead] at whole
      have turned := congrArg List.reverse whole
      simpa [afterLast] using turned.symm

end Imflib.Text
