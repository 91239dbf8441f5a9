import CallBoundary.Json
import Mathlib
/-! The tokens of JSON text from the writing side. A token may be spelled in more than one way: each character of a string
as itself or by an escape, a numeral with or without fraction and exponent. Between tokens there may be blanks. However
a list of tokens is laid out as text, the text splits into these tokens again, as long as no two
numerals stand next to each other. -/
namespace CallBoundary.Json

def Digits (ds : List Char) : Prop := ds ≠ [] ∧ ∀ d ∈ ds, d.isDigit = true

structure Whole (ds : List Char) : Prop where
  digits : Digits ds
  leading : ds.head? = some '0' → ds = ['0']

inductive Fraction : List Char → Prop where
  | none : Fraction []
  | some {ds} : Digits ds → Fraction ('.' :: ds)

inductive Exponent : List Char → Prop where
  | none : Exponent []
  | unsigned {mark ds} : mark = 'e' ∨ mark = 'E' → Digits ds → Exponent (mark :: ds)
  | signed {mark sign ds} : mark = 'e' ∨ mark = 'E' → sign = '+' ∨ sign = '-' → Digits ds → Exponent (mark :: sign :: ds)

inductive Unsigned : List Char → Prop where
  | parts {whole fraction exponent} : Whole whole → Fraction fraction → Exponent exponent →
      Unsigned (whole ++ (fraction ++ exponent))

inductive Numeral : List Char → Prop where
  | positive {cs} : Unsigned cs → Numeral cs
  | negative {cs} : Unsigned cs → Numeral ('-' :: cs)

def Stops (p : Char → Bool) (cs : List Char) : Prop := ∀ c ∈ cs.head?, p c = false

theorem stopsNil (p : Char → Bool) : Stops p [] := by
  intro c head
  cases head

theorem stopsCons {p : Char → Bool} {c : Char} {cs : List Char} (other : p c = false) : Stops p (c :: cs) := by
  intro d head
  cases head
  exact other

theorem spanRun {p : Char → Bool} {run rest : List Char} (all : ∀ c ∈ run, p c = true) (stops : Stops p rest) :
    (run ++ rest).takeWhile p = run ∧ (run ++ rest).dropWhile p = rest := by
  rw [List.takeWhile_append_of_pos all, List.dropWhile_append_of_pos all]
  cases rest with
  | nil => simp
  | cons c rest => simp [stops c rfl]

theorem allDigitsOf {ds : List Char} (digits : Digits ds) : allDigits ds = true := by
  simp only [allDigits, Bool.and_eq_true, Bool.not_eq_true', List.isEmpty_eq_false_iff, List.all_eq_true]
  exact digits

theorem isWholeOf {ds : List Char} (whole : Whole ds) : isWhole ds = true := by
  unfold isWhole
  split
  · rename_i rest
    have single := whole.leading rfl
    simp only [List.cons.injEq, true_and] at single
    rw [single]
    rfl
  · exact allDigitsOf whole.digits

theorem exponentStops {cs : List Char} (exponent : Exponent cs) : Stops Char.isDigit cs := by
  cases exponent with
  | none => exact stopsNil _
  | unsigned marked digits => rcases marked with rfl | rfl <;> exact stopsCons rfl
  | signed marked signed digits => rcases marked with rfl | rfl <;> exact stopsCons rfl

theorem isExponentOf {cs : List Char} (exponent : Exponent cs) : isExponent cs = true := by
  cases exponent with
  | none => rfl
  | @unsigned mark ds marked digits =>
    have power : (decide (mark = 'e') || decide (mark = 'E')) = true := by simpa using marked
    rw [isExponent, power, Bool.true_and]
    · exact allDigitsOf digits
    · rintro rest rfl
      exact absurd (digits.2 '+' List.mem_cons_self) (by decide)
    · rintro rest rfl
      exact absurd (digits.2 '-' List.mem_cons_self) (by decide)
  | @signed mark sign ds marked signed digits =>
    have power : (decide (mark = 'e') || decide (mark = 'E')) = true := by simpa using marked
    rcases signed with rfl | rfl <;> rw [isExponent, power, Bool.true_and, allDigitsOf digits]

theorem isFractionOf {fraction exponent : List Char} (given : Fraction fraction) (power : Exponent exponent) :
    isFraction (fraction ++ exponent) = true := by
  cases given with
  | none =>
    have exponents : isFraction exponent = isExponent exponent := by
      cases power with
      | none => rfl
      | unsigned marked digits => rcases marked with rfl | rfl <;> rfl
      | signed marked signed digits => rcases marked with rfl | rfl <;> rfl
    exact exponents.trans (isExponentOf power)
  | @some ds digits =>
    obtain ⟨taken, left⟩ := spanRun digits.2 (exponentStops power)
    rw [List.cons_append, isFraction, taken, left, allDigitsOf digits, isExponentOf power]
    rfl

theorem fractionStops {fraction exponent : List Char} (given : Fraction fraction) (power : Exponent exponent) :
    Stops Char.isDigit (fraction ++ exponent) := by
  cases given with
  | none => exact exponentStops power
  | some digits => exact stopsCons rfl

theorem isUnsignedOf {cs : List Char} (plain : Unsigned cs) : isUnsigned cs = true := by
  obtain ⟨whole, fraction, exponent⟩ := plain
  obtain ⟨taken, left⟩ := spanRun whole.digits.2 (fractionStops fraction exponent)
  rw [isUnsigned, taken, left, isWholeOf whole, isFractionOf fraction exponent]
  rfl

theorem unsignedStarts {cs : List Char} (plain : Unsigned cs) : ∃ d rest, cs = d :: rest ∧ d.isDigit = true := by
  obtain ⟨whole, -, -⟩ := plain
  obtain ⟨d, rest, rfl⟩ := List.exists_cons_of_ne_nil whole.digits.1
  exact ⟨d, _, rfl, whole.digits.2 d List.mem_cons_self⟩

theorem isNumeralOf {cs : List Char} (numeral : Numeral cs) : isNumeral cs = true := by
  cases numeral with
  | positive plain =>
    obtain ⟨d, rest, rfl, digit⟩ := unsignedStarts plain
    unfold isNumeral
    split
    · rename_i same
      cases same
      exact absurd digit (by decide)
    · exact isUnsignedOf plain
  | negative plain => exact isUnsignedOf plain

theorem numeralChars {cs : List Char} (numeral : Numeral cs) : ∀ c ∈ cs, isNumeralChar c = true := by
  have ofDigits : ∀ {ds : List Char}, Digits ds → ∀ c ∈ ds, isNumeralChar c = true := by
    intro ds digits c member
    rw [isNumeralChar, digits.2 c member]
    rfl
  have ofExponent : ∀ {cs : List Char}, Exponent cs → ∀ c ∈ cs, isNumeralChar c = true := by
    intro cs exponent
    cases exponent with
    | none => simp
    | unsigned marked digits => rcases marked with rfl | rfl <;> simpa [isNumeralChar] using ofDigits digits
    | signed marked signed digits =>
      rcases marked with rfl | rfl <;> rcases signed with rfl | rfl <;> simpa [isNumeralChar] using ofDigits digits
  have ofUnsigned : ∀ {cs : List Char}, Unsigned cs → ∀ c ∈ cs, isNumeralChar c = true := by
    rintro cs ⟨whole, fraction, exponent⟩
    simp only [List.forall_mem_append]
    refine ⟨ofDigits whole.digits, ?_, ofExponent exponent⟩
    cases fraction with
    | none => simp
    | some digits => simpa [isNumeralChar] using ofDigits digits
  cases numeral with
  | positive plain => exact ofUnsigned plain
  | negative plain => simpa [isNumeralChar] using ofUnsigned plain

def shortForms : List (Char × Char) :=
  [('"', '"'), ('\\', '\\'), ('/', '/'), ('b', '\x08'), ('f', '\x0c'), ('n', '\n'), ('r', '\r'), ('t', '\t')]

def HexDigit (c : Char) (value : Nat) : Prop :=
  "0123456789abcdef".toList[value]? = some c ∨ "0123456789ABCDEF".toList[value]? = some c

inductive HexUnit : List Char → Nat → Prop where
  | digits {a b c d} {i j k l : Nat} : HexDigit a i → HexDigit b j → HexDigit c k → HexDigit d l →
      HexUnit [a, b, c, d] (4096 * i + 256 * j + 16 * k + l)

-- What may stand between the quotes for a text. A character beyond 16 bits is escaped by two units, the upper and
-- the lower half of it.
inductive Quoted : List Char → List Char → Prop where
  | nil : Quoted [] []
  | plain {c text cs} : 32 ≤ c.toNat → c ≠ '"' → c ≠ '\\' → Quoted text cs → Quoted (c :: text) (c :: cs)
  | short {mark c text cs} : (mark, c) ∈ shortForms → Quoted text cs → Quoted (c :: text) ('\\' :: mark :: cs)
  | unit {c text digits cs} : HexUnit digits c.toNat → Quoted text cs →
      Quoted (c :: text) ('\\' :: 'u' :: (digits ++ cs))
  | halves {c text upper lower high low cs} : HexUnit upper high → HexUnit lower low →
      0xd800 ≤ high → high < 0xdc00 → 0xdc00 ≤ low → low < 0xe000 →
      c.toNat = 0x10000 + 0x400 * (high - 0xd800) + (low - 0xdc00) → Quoted text cs →
      Quoted (c :: text) ('\\' :: 'u' :: (upper ++ '\\' :: 'u' :: (lower ++ cs)))

theorem hexValueOf {c : Char} {value : Nat} (digit : HexDigit c value) : hexValue? c = some value := by
  have small : ∀ entry ∈ "0123456789abcdef".toList.zipIdx, hexValue? entry.1 = some entry.2 := by decide
  have large : ∀ entry ∈ "0123456789ABCDEF".toList.zipIdx, hexValue? entry.1 = some entry.2 := by decide
  rcases digit with lower | upper
  · exact small (c, value) (List.mk_mem_zipIdx_iff_getElem?.mpr lower)
  · exact large (c, value) (List.mk_mem_zipIdx_iff_getElem?.mpr upper)

theorem readUnit {digits : List Char} {unit : Nat} (written : HexUnit digits unit) (rest : List Char) :
    readPieces ('\\' :: 'u' :: (digits ++ rest)) = (readPieces rest).map fun read => (pieceOfUnit unit :: read.1, read.2) := by
  obtain ⟨a, b, c, d⟩ := written
  simp only [List.cons_append, List.nil_append, readPieces, unit?, hexValueOf a, hexValueOf b, hexValueOf c, hexValueOf d]
  cases readPieces rest <;> rfl

theorem pieceOfChar (c : Char) : pieceOfUnit c.toNat = .char c := by
  -- the numbers of halves are the gap between the characters
  have whole : ¬ (0xd800 ≤ c.toNat ∧ c.toNat < 0xe000) := by
    rintro ⟨low, high⟩
    rcases c.valid with below | ⟨above, -⟩
    · exact absurd (Nat.lt_of_le_of_lt low below) (Nat.lt_irrefl _)
    · exact absurd (Nat.lt_of_lt_of_le high above) (Nat.lt_irrefl _)
  rw [pieceOfUnit, if_neg whole, Char.ofNat_toNat]

theorem pieceOfHalf {unit : Nat} (low : 0xd800 ≤ unit) (high : unit < 0xe000) : pieceOfUnit unit = .half unit :=
  if_pos ⟨low, high⟩

theorem readPlain {c : Char} (printable : 32 ≤ c.toNat) (unquoted : c ≠ '"') (bare : c ≠ '\\') (rest : List Char) :
    readPieces (c :: rest) = (readPieces rest).map fun read => (.char c :: read.1, read.2) := by
  have allowed : ¬ (c.toNat < 32 ∨ c = '\\') := by
    rintro (control | same)
    · exact Nat.not_lt.mpr printable control
    · exact bare same
  rw [readPieces, if_neg allowed]
  · cases readPieces rest <;> rfl
  all_goals simp [unquoted, bare]

theorem shortEscaped {mark c : Char} (listed : (mark, c) ∈ shortForms) : escaped? mark = some c ∧ mark ≠ 'u' := by
  simp only [shortForms, List.mem_cons, Prod.mk.injEq, List.not_mem_nil, or_false] at listed
  rcases listed with ⟨rfl, rfl⟩ | ⟨rfl, rfl⟩ | ⟨rfl, rfl⟩ | ⟨rfl, rfl⟩ | ⟨rfl, rfl⟩ | ⟨rfl, rfl⟩ | ⟨rfl, rfl⟩ | ⟨rfl, rfl⟩ <;>
    decide

theorem readShort {mark c : Char} (listed : (mark, c) ∈ shortForms) (rest : List Char) :
    readPieces ('\\' :: mark :: rest) = (readPieces rest).map fun read => (.char c :: read.1, read.2) := by
  obtain ⟨stands, notUnit⟩ := shortEscaped listed
  rw [readPieces, stands]
  · cases readPieces rest <;> rfl
  · intro _ _ _ _ _ same
    exact absurd same notUnit

theorem readQuoted {text cs : List Char} (quoted : Quoted text cs) (rest : List Char) :
    ∃ pieces, readPieces (cs ++ '"' :: rest) = some (pieces, rest) ∧ joinPieces pieces = some text := by
  induction quoted with
  | nil => exact ⟨[], rfl, rfl⟩
  | @plain c text cs printable unquoted bare _ ih =>
    obtain ⟨pieces, read, joined⟩ := ih
    refine ⟨.char c :: pieces, ?_, by rw [joinPieces, joined, Option.map_some]⟩
    rw [List.cons_append, readPlain printable unquoted bare, read, Option.map_some]
  | @short mark c text cs listed _ ih =>
    obtain ⟨pieces, read, joined⟩ := ih
    refine ⟨.char c :: pieces, ?_, by rw [joinPieces, joined, Option.map_some]⟩
    rw [List.cons_append, List.cons_append, readShort listed, read, Option.map_some]
  | @unit c text digits cs written _ ih =>
    obtain ⟨pieces, read, joined⟩ := ih
    refine ⟨.char c :: pieces, ?_, by rw [joinPieces, joined, Option.map_some]⟩
    rw [List.cons_append, List.cons_append, List.append_assoc, readUnit written, read, Option.map_some, pieceOfChar]
  | @halves c text upper lower high low cs first second above below floor top same _ ih =>
    obtain ⟨pieces, read, joined⟩ := ih
    refine ⟨.half high :: .half low :: pieces, ?_, ?_⟩
    · simp only [List.cons_append, List.append_assoc]
      rw [readUnit first, readUnit second, read, Option.map_some, Option.map_some, pieceOfHalf above (by omega),
        pieceOfHalf (by omega) top]
    · have number : 0x10000 + 1024 * (high - 0xd800) + (low - 0xdc00) = c.toNat := same.symm
      rw [joinPieces, if_pos ⟨below, floor⟩, joined, Option.map_some, number, Char.ofNat_toNat]

inductive Spelled : Token → List Char → Prop where
  | openArray : Spelled .openArray ['[']
  | closeArray : Spelled .closeArray [']']
  | openObject : Spelled .openObject ['\x7b']
  | closeObject : Spelled .closeObject ['\x7d']
  | comma : Spelled .comma [',']
  | colon : Spelled .colon [':']
  | null : Spelled .null "null".toList
  | true : Spelled (.bool true) "true".toList
  | false : Spelled (.bool false) "false".toList
  | number {numeral} : Numeral numeral → Spelled (.number numeral) numeral
  | string {text cs} : Quoted text cs → Spelled (.string (some (String.ofList text))) ('"' :: (cs ++ ['"']))

inductive Laid : List Token → List Char → Prop where
  | nil : Laid [] []
  | blank {b ts cs} : b ∈ [' ', '\n', '\t', '\r'] → Laid ts cs → Laid ts (b :: cs)
  | token {t spelled ts cs} : Spelled t spelled → Laid ts cs → Laid (t :: ts) (spelled ++ cs)

theorem laidAppend {ts more : List Token} {cs rest : List Char} (first : Laid ts cs) (second : Laid more rest) :
    Laid (ts ++ more) (cs ++ rest) := by
  induction first with
  | nil => exact second
  | blank white _ ih => exact .blank white ih
  | token spelled _ ih =>
    rw [List.append_assoc]
    exact .token spelled ih

def isNumber : Token → Bool
  | .number _ => true
  | _ => false

def Apart (ts : List Token) : Prop := ts.IsChain fun t next => isNumber t = false ∨ isNumber next = false

-- Only a numeral starts with a character of numerals: so any other token ends the numeral in front of it.
theorem spelledStarts {t : Token} {cs : List Char} (spelled : Spelled t cs) :
    ∃ c rest, cs = c :: rest ∧ isBlank c = false ∧ isNumeralChar c = isNumber t := by
  cases spelled with
  | number numeral =>
    have starts : ∃ c rest, cs = c :: rest := by
      cases numeral with
      | positive plain =>
        obtain ⟨d, rest, same, -⟩ := unsignedStarts plain
        exact ⟨d, rest, same⟩
      | negative plain => exact ⟨'-', _, rfl⟩
    obtain ⟨c, rest, rfl⟩ := starts
    have char := numeralChars numeral c List.mem_cons_self
    refine ⟨c, rest, rfl, ?_, char⟩
    by_contra blank
    simp only [isBlank, Bool.not_eq_false, Bool.or_eq_true, decide_eq_true_eq] at blank
    rcases blank with ((rfl | rfl) | rfl) | rfl <;> exact absurd char (by decide)
  | _ => exact ⟨_, _, rfl, rfl, rfl⟩

theorem laidStops {ts : List Token} {cs : List Char} (laid : Laid ts cs) (other : ∀ t ∈ ts.head?, isNumber t = false) :
    Stops isNumeralChar cs := by
  induction laid with
  | nil => exact stopsNil _
  | blank white _ ih =>
    simp only [List.mem_cons, List.not_mem_nil, or_false] at white
    rcases white with rfl | rfl | rfl | rfl <;> exact stopsCons rfl
  | token spelled _ ih =>
    obtain ⟨c, rest, rfl, -, same⟩ := spelledStarts spelled
    exact stopsCons (same.trans (other _ rfl))

theorem readNumeral {numeral rest : List Char} (given : Numeral numeral) (stops : Stops isNumeralChar rest) :
    readToken (numeral ++ rest) = some (.number numeral, rest) := by
  obtain ⟨c, tail, rfl, -, char⟩ := spelledStarts (.number given)
  obtain ⟨taken, left⟩ := spanRun (numeralChars given) stops
  rw [readToken]
  · simp only [taken, left, isNumeralOf given, if_true]
  all_goals
    simp only [List.cons_append, List.cons.injEq]
    rintro after ⟨rfl, -⟩
    exact absurd char Bool.false_ne_true

theorem readSpelled {t : Token} {cs rest : List Char} (spelled : Spelled t cs)
    (stops : isNumber t = true → Stops isNumeralChar rest) : readToken (cs ++ rest) = some (t, rest) := by
  cases spelled with
  | number numeral => exact readNumeral numeral (stops rfl)
  | @string text cs quoted =>
    obtain ⟨pieces, read, joined⟩ := readQuoted quoted rest
    simp only [List.cons_append, List.append_assoc, List.nil_append, readToken, read, Option.map_some, textOfPieces, joined]
  | _ => rfl

theorem tokensBlank {b : Char} {cs : List Char} (white : isBlank b = true) : tokens (b :: cs) = tokens cs := by
  rw [tokens, if_pos white]

theorem tokensRead {c : Char} {cs after : List Char} {t : Token} (black : isBlank c = false)
    (read : readToken (c :: cs) = some (t, after)) : tokens (c :: cs) = (tokens after).map (t :: ·) := by
  rw [tokens, if_neg (by simp [black])]
  split
  · rename_i unread
    cases unread.symm.trans read
  · rename_i found
    cases found.symm.trans read
    rfl

theorem tokensLaid {ts : List Token} {cs : List Char} (laid : Laid ts cs) (apart : Apart ts) : tokens cs = some ts := by
  induction laid with
  | nil => rw [tokens]
  | @blank b ts cs white _ ih =>
    have blank : isBlank b = true := by simpa [isBlank, or_assoc] using white
    rw [tokensBlank blank, ih apart]
  | @token t spelled ts cs written laid ih =>
    have after := ih apart.tail
    have stops : isNumber t = true → Stops isNumeralChar cs := by
      intro numeral
      refine laidStops laid fun next head => ?_
      cases ts with
      | nil => cases head
      | cons first more =>
        cases head
        exact (List.isChain_cons_cons.mp apart).1.resolve_left (by simp [numeral])
    have read := readSpelled written stops
    obtain ⟨c, rest, rfl, black, -⟩ := spelledStarts written
    rw [List.cons_append] at read ⊢
    rw [tokensRead black read, after, Option.map_some]

end CallBoundary.Json
