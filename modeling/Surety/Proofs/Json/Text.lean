import Mathlib.Data.List.Nodup
import Surety.Json.Reader
import Surety.Json.Writer

/-!
# JSON text and back

The reader takes any value that starts at a place of a text and leaves the text behind the value.  It
has to stop where the written value ends, which is a question for numbers only: what follows a value
inside a text is a comma, a closing bracket or nothing, and none of these goes on with a number.

* `Json.Plain` says which values are given back: no real numbers, whole numbers of 64 bits, no name
  twice in one object, and no deeper nesting than the reader allows.
* `reads_of_plain` says that such a value is read from the front of a text whatever follows, given
  two steps for every character of its own text.
* `parse?_render` is the result for a whole text.

Nothing is said about real numbers, and nothing about texts that were written in another way.
-/

namespace Surety.Json

/-! ## Where a value ends -/

/-- What may follow a value inside a text: nothing, the comma before the next value or a closing
bracket. -/
def Stops (rest : List Char) : Prop := ∀ c ∈ rest.head?, c = ',' ∨ c = ']' ∨ c = '\x7d'

theorem stops_nil : Stops [] := by simp [Stops]

theorem stops_cons {c : Char} (rest : List Char) (hc : c = ',' ∨ c = ']' ∨ c = '\x7d') :
    Stops (c :: rest) := by
  simpa [Stops] using hc

theorem not_isDigit_of_stops {c : Char} {rest : List Char} (h : Stops (c :: rest)) :
    c.isDigit = false := by
  rcases h c (by simp) with rfl | rfl | rfl <;> rfl

/-! ## Numbers -/

theorem value?_of_isDigit {c : Char} (hc : c.isDigit = true) :
    Digit.value? 10 c = some (c.toNat - 48) := by
  have hrange : 48 ≤ c.toNat ∧ c.toNat ≤ 57 := by
    simpa [Char.isDigit, UInt32.le_iff_toNat_le] using hc
  have hhex : Digit.hexValue? c = some (c.toNat - 48) := by
    apply if_pos
    simpa [Char.le_def, UInt32.le_iff_toNat_le] using hrange
  rw [Digit.value?, hhex, Option.filter_some, if_pos]
  simp
  omega

/-- A run of digits denotes what it denotes in decimal notation. -/
theorem decimalValue_eq {digits : List Char} (hne : digits ≠ [])
    (hdigits : ∀ c ∈ digits, c.isDigit = true) :
    decimalValue digits = Nat.ofDigitChars 10 digits 0 := by
  have hvalues : digits.mapM (Digit.value? 10) = some (digits.map fun c => c.toNat - 48) := by
    clear hne
    induction digits with
    | nil => rfl
    | cons c digits ih =>
        have hrest := ih fun d hd => hdigits d (by simp [hd])
        simp [value?_of_isDigit (hdigits c (by simp)), hrest]
  have hnumber : Digit.number? 10 digits = some (Nat.ofDigitChars 10 digits 0) := by
    rw [Digit.number?, if_neg (by simpa using hne), hvalues, Option.map_some, List.foldl_map]
    rfl
  rw [decimalValue, hnumber, Option.getD_some]

/-- A positive number does not start with a zero. -/
theorem head?_toDigits {n : Nat} (hn : 0 < n) : (Nat.toDigits 10 n).head? ≠ some '0' := by
  induction n using Nat.strongRecOn with
  | ind n ih =>
      rcases Nat.lt_or_ge n 10 with hsmall | hlarge
      · rw [Nat.toDigits_of_lt_base hsmall]
        have hall : ∀ d < 10, 0 < d → [Nat.digitChar d].head? ≠ some '0' := by decide
        exact hall n hsmall hn
      · rw [Nat.toDigits_of_base_le (by decide) hlarge,
          List.head?_append_of_ne_nil _ Nat.toDigits_ne_nil]
        exact ih (n / 10) (by omega) (by omega)

theorem span_digits {digits rest : List Char} (hdigits : ∀ c ∈ digits, c.isDigit = true)
    (hrest : Stops rest) :
    (digits ++ rest).takeWhile Char.isDigit = digits ∧
      (digits ++ rest).dropWhile Char.isDigit = rest := by
  rw [List.takeWhile_append_of_pos hdigits, List.dropWhile_append_of_pos hdigits]
  cases rest with
  | nil => simp
  | cons c rest => simp [not_isDigit_of_stops hrest]

theorem isDigit_of_mem_toDigits {n : Nat} : ∀ c ∈ Nat.toDigits 10 n, c.isDigit = true :=
  fun _ => Nat.isDigit_of_mem_toDigits (by decide) (by decide)

section

variable {rest : List Char} (hrest : Stops rest)

include hrest

/-- All digits of a number are taken, and no more. -/
theorem wholeDigits?_toDigits (n : Nat) :
    wholeDigits? (Nat.toDigits 10 n ++ rest) = some (Nat.toDigits 10 n, rest) := by
  rcases Nat.eq_zero_or_pos n with rfl | hpos
  · rfl
  · obtain ⟨htake, hdrop⟩ := span_digits isDigit_of_mem_toDigits hrest
    have hhead := head?_toDigits hpos
    cases hdigits : Nat.toDigits 10 n with
    | nil => exact absurd hdigits Nat.toDigits_ne_nil
    | cons c digits =>
        rw [hdigits] at htake hdrop hhead
        unfold wholeDigits?
        split
        · rename_i heq
          rw [List.cons_append] at heq
          simp [(List.cons.inj heq).1] at hhead
        · rw [htake, hdrop]

/-- What follows a whole number is no fraction and no exponent. -/
theorem no_fraction_or_exponent :
    fractionDigits? rest = some ([], rest) ∧ exponent? rest = some (none, rest) := by
  cases rest with
  | nil => exact ⟨rfl, rfl⟩
  | cons c rest =>
      rcases hrest c (by simp) with rfl | rfl | rfl
      · exact ⟨rfl, rfl⟩
      · exact ⟨rfl, rfl⟩
      · exact ⟨rfl, rfl⟩

/-- The digits of a number are read as that number. -/
theorem number?_toDigits {negative : Bool} {n : Nat} {value : Json}
    (hvalue : numberOf? negative (Nat.toDigits 10 n) [] none = some value) :
    number? negative (Nat.toDigits 10 n ++ rest) = some (value, rest) := by
  obtain ⟨hfraction, hexponent⟩ := no_fraction_or_exponent hrest
  rw [number?, wholeDigits?_toDigits hrest n]
  simp [hfraction, hexponent, hvalue]

end

theorem decimalValue_toDigits (n : Nat) : decimalValue (Nat.toDigits 10 n) = n := by
  rw [decimalValue_eq Nat.toDigits_ne_nil isDigit_of_mem_toDigits,
    Nat.ofDigitChars_toDigits (by decide) (by decide)]

theorem numberOf?_natural {n : Nat} (hn : n < 2 ^ 64) :
    numberOf? false (Nat.toDigits 10 n) [] none = some (.int n) := by
  have hfits : decide (n < 2 ^ 64) = true := decide_eq_true hn
  simp only [numberOf?, decimalValue_toDigits, hfits]
  rfl

theorem numberOf?_negative {n : Nat} (hpos : 0 < n) (hn : n ≤ 2 ^ 63) :
    numberOf? true (Nat.toDigits 10 n) [] none = some (.int (-n)) := by
  have hfits : decide (0 < n ∧ n ≤ 2 ^ 63) = true := decide_eq_true ⟨hpos, hn⟩
  simp only [numberOf?, decimalValue_toDigits, hfits]
  rfl

/-! ## Strings -/

/-- A control character is written as its number in four hexadecimal digits. -/
theorem number?_controlDigits {n : Nat} (hn : n < 32) :
    Digit.number? 16 ['0', '0', Hex.digitChar (n / 16), Hex.digitChar (n % 16)] = some n :=
  (by decide : ∀ n < 32,
    Digit.number? 16 ['0', '0', Hex.digitChar (n / 16), Hex.digitChar (n % 16)] = some n) n hn

/-- A character that needs no escape stands for itself. -/
theorem stringChar?_of_plain {c : Char} (rest : List Char) (hbackslash : c ≠ '\\')
    (hcontrol : ¬c.toNat < 32) : stringChar? (c :: rest) = some (c, rest) := by
  unfold stringChar?
  split
  · simp_all
  · simp_all
  · rename_i heq
    obtain ⟨rfl, rfl⟩ := List.cons.inj heq
    rw [if_neg hcontrol]
  · simp_all

/-- A short escape is taken back by the reader. -/
theorem simpleEscape?_of_short {c short : Char} (h : shortEscape? c = some short) :
    simpleEscape? short = some c := by
  unfold shortEscape? at h
  split_ifs at h
  all_goals
    cases h
    subst c
    rfl

/-- A quote and a backslash are always escaped. -/
theorem ne_of_not_short {c : Char} (h : shortEscape? c = none) : c ≠ '"' ∧ c ≠ '\\' := by
  constructor
  · rintro rfl
    cases h
  · rintro rfl
    cases h

/-- A character behind a backslash is read as what it is short for; a `u`, which a number follows, is
short for nothing. -/
theorem stringChar?_of_escape {c short : Char} (rest : List Char)
    (h : simpleEscape? short = some c) :
    stringChar? ('\\' :: short :: rest) = some (c, rest) := by
  have hnumber : short ≠ 'u' := by
    rintro rfl
    cases h
  rw [stringChar?, h, Option.map_some]
  exact fun _ _ _ _ _ heq => absurd heq hnumber

/-- A character inside a string is read as it was written, and never as the closing quote. -/
theorem stringChar?_escapeChar (c : Char) (rest : List Char) :
    stringChar? (escapeChar c ++ rest) = some (c, rest) ∧
      (escapeChar c ++ rest).head? ≠ some '"' := by
  unfold escapeChar
  cases hshort : shortEscape? c with
  | some short => exact ⟨stringChar?_of_escape rest (simpleEscape?_of_short hshort), by simp⟩
  | none =>
      obtain ⟨hquote, hbackslash⟩ := ne_of_not_short hshort
      dsimp only
      split_ifs with hcontrol
      · refine ⟨?_, by simp⟩
        show stringChar? ('\\' :: 'u' :: '0' :: '0' :: _ :: _ :: rest) = _
        rw [stringChar?, number?_controlDigits hcontrol]
        -- the number of a control character is no half of a surrogate pair
        have hlow : ¬(0xD800 ≤ c.toNat ∧ c.toNat < 0xDC00) := by omega
        have hhigh : ¬(0xDC00 ≤ c.toNat ∧ c.toNat < 0xE000) := by omega
        simp [hlow, hhigh]
      · exact ⟨stringChar?_of_plain rest hbackslash hcontrol, by simpa using hquote⟩

/-- One step takes one character that is not the closing quote. -/
theorem stringRest_of_char {text rest : List Char} {c : Char} (fuel : Nat) (taken : List Char)
    (hchar : stringChar? text = some (c, rest)) (hquote : text.head? ≠ some '"') :
    stringRest (fuel + 1) taken text = stringRest fuel (c :: taken) rest := by
  cases text with
  | nil => cases hchar
  | cons first text =>
      have hother : first ≠ '"' := by simpa using hquote
      simp [stringRest, hother, hchar]

/-- A quoted string is read as it was written, given one step for each character and one for the
closing quote. -/
theorem stringRest_quoted (chars : List Char) {fuel : Nat} (taken rest : List Char)
    (hfuel : chars.length < fuel) :
    stringRest fuel taken (chars.flatMap escapeChar ++ '"' :: rest)
      = some (String.ofList (taken.reverse ++ chars), rest) := by
  induction chars generalizing fuel taken with
  | nil =>
      obtain ⟨fuel, rfl⟩ : ∃ k, fuel = k + 1 := ⟨fuel - 1, by omega⟩
      simp [stringRest]
  | cons c chars ih =>
      obtain ⟨fuel, rfl⟩ : ∃ k, fuel = k + 1 := ⟨fuel - 1, by omega⟩
      have hrest := @ih fuel (c :: taken) (by simpa using hfuel)
      obtain ⟨hchar, hquote⟩ := stringChar?_escapeChar c (chars.flatMap escapeChar ++ '"' :: rest)
      rw [List.flatMap_cons, List.append_assoc, stringRest_of_char fuel taken hchar hquote, hrest]
      simp

/-! ## Values -/

/-- A value that its text gives back: whole numbers of 64 bits only, no name twice in one object, and
at most so many lists and objects inside each other. -/
inductive Plain : (depth : Nat) → Json → Prop
  | null {depth : Nat} : Plain depth .null
  | bool {depth : Nat} (b : Bool) : Plain depth (.bool b)
  | int {depth : Nat} {n : Int} (hlow : -2 ^ 63 ≤ n) (hhigh : n < 2 ^ 64) : Plain depth (.int n)
  | str {depth : Nat} (s : String) : Plain depth (.str s)
  | arr {depth : Nat} {items : List Json} (hitems : ∀ item ∈ items, Plain depth item) :
      Plain (depth + 1) (.arr items)
  | obj {depth : Nat} {fields : List (String × Json)} (hnames : (fields.map Prod.fst).Nodup)
      (hfields : ∀ field ∈ fields, Plain depth field.2) : Plain (depth + 1) (.obj fields)

theorem skipBlanks_cons {c : Char} (tail : List Char) (hc : isBlank c = false) :
    skipBlanks (c :: tail) = c :: tail := by
  rw [skipBlanks, List.dropWhile_cons_of_neg (by simp [hc])]

theorem isBlank_of_isDigit {c : Char} (hc : c.isDigit = true) : isBlank c = false := by
  rw [Bool.eq_false_iff]
  intro hblank
  obtain ((rfl | rfl) | rfl) | rfl : ((c = ' ' ∨ c = '\t') ∨ c = '\n') ∨ c = '\r' := by
    simpa [isBlank] using hblank
  · cases hc
  · cases hc
  · cases hc
  · cases hc

/-- Reading a value that starts with a digit is reading a number. -/
theorem value?_of_digit {c : Char} {tail : List Char} (fuel depth : Nat) (hc : c.isDigit = true) :
    value? (fuel + 1) depth (c :: tail) = number? false (c :: tail) := by
  rw [value?, skipBlanks_cons tail (isBlank_of_isDigit hc)]
  split
  · exact absurd hc (by simp_all)
  · exact absurd hc (by simp_all)
  · exact absurd hc (by simp_all)
  · exact absurd hc (by simp_all)
  · exact absurd hc (by simp_all)
  · exact absurd hc (by simp_all)
  · exact absurd hc (by simp_all)
  · rfl

/-! ## Texts of values -/

theorem toList_quote_append (s : String) (rest : List Char) :
    (quote s).toList ++ rest = '"' :: (s.toList.flatMap escapeChar ++ '"' :: rest) := by
  simp [quote]

theorem toList_render_natural (n : Nat) :
    (render (.int (.ofNat n))).toList = Nat.toDigits 10 n := by
  rw [render]
  exact Nat.toList_repr

theorem toList_render_negative (n : Nat) :
    (render (.int (.negSucc n))).toList = '-' :: Nat.toDigits 10 (n + 1) := by
  rw [render]
  show ("-" ++ Nat.repr (n + 1)).toList = _
  rw [String.toList_append, Nat.toList_repr]
  rfl

theorem toList_render_arr_append (items : List Json) (rest : List Char) :
    (render (.arr items)).toList ++ rest = '[' :: ((renderItems items).toList ++ ']' :: rest) := by
  simp [render]

theorem toList_render_obj_append (fields : List (String × Json)) (rest : List Char) :
    (render (.obj fields)).toList ++ rest
      = '\x7b' :: ((renderFields fields).toList ++ '\x7d' :: rest) := by
  simp [render]

theorem toList_renderItems_cons (item next : Json) (items : List Json) (rest : List Char) :
    (renderItems (item :: next :: items)).toList ++ rest
      = (render item).toList ++ ',' :: ((renderItems (next :: items)).toList ++ rest) := by
  simp [renderItems]

theorem toList_renderFields_single (name : String) (value : Json) (rest : List Char) :
    (renderFields [(name, value)]).toList ++ rest
      = (quote name).toList ++ ':' :: ((render value).toList ++ rest) := by
  simp [renderFields]

theorem toList_renderFields_cons (name : String) (value : Json) (next : String × Json)
    (fields : List (String × Json)) (rest : List Char) :
    (renderFields ((name, value) :: next :: fields)).toList ++ rest
      = (quote name).toList ++ ':' :: ((render value).toList
        ++ ',' :: ((renderFields (next :: fields)).toList ++ rest)) := by
  simp [renderFields]

/-- A text starts like a value: neither with a blank nor with a closing bracket. -/
def StartsValue (text : List Char) : Prop :=
  ∃ c tail, text = c :: tail ∧ isBlank c = false ∧ c ≠ ']'

theorem startsValue_toDigits (n : Nat) (rest : List Char) :
    StartsValue (Nat.toDigits 10 n ++ rest) := by
  cases hdigits : Nat.toDigits 10 n with
  | nil => exact absurd hdigits Nat.toDigits_ne_nil
  | cons c digits =>
      have hc : c.isDigit = true := @isDigit_of_mem_toDigits n c (by simp [hdigits])
      refine ⟨c, _, rfl, isBlank_of_isDigit hc, ?_⟩
      rintro rfl
      cases hc

theorem startsValue_render {depth : Nat} {j : Json} (hj : Plain depth j) (rest : List Char) :
    StartsValue ((render j).toList ++ rest) := by
  cases hj with
  | null => exact ⟨'n', _, by rw [render]; rfl, rfl, by decide⟩
  | bool b =>
      cases b with
      | false => exact ⟨'f', _, by rw [render]; rfl, rfl, by decide⟩
      | true => exact ⟨'t', _, by rw [render]; rfl, rfl, by decide⟩
  | @int depth n hlow hhigh =>
      cases n with
      | ofNat n =>
          rw [toList_render_natural]
          exact startsValue_toDigits n rest
      | negSucc n => exact ⟨'-', _, by rw [toList_render_negative]; rfl, rfl, by decide⟩
  | str s => exact ⟨'"', _, by rw [render, toList_quote_append], rfl, by decide⟩
  | arr hitems => exact ⟨'[', _, toList_render_arr_append _ rest, rfl, by decide⟩
  | obj hnames hfields => exact ⟨'\x7b', _, toList_render_obj_append _ rest, rfl, by decide⟩

/-! ## Reading values -/

/-- A value is read from its text, whatever follows, given two steps for every character. -/
def Reads (depth : Nat) (j : Json) : Prop :=
  ∀ fuel rest, 2 * (render j).toList.length ≤ fuel → Stops rest →
    value? fuel depth ((render j).toList ++ rest) = some (j, rest)

section

variable {depth : Nat}

/-- The items of a list are read one after another. -/
theorem items?_renderItems {items : List Json} (hne : items ≠ [])
    (hread : ∀ item ∈ items, Reads depth item) {fuel : Nat} (taken : List Json) (rest : List Char)
    (hfuel : 2 * (renderItems items).toList.length < fuel) :
    items? fuel depth taken ((renderItems items).toList ++ ']' :: rest)
      = some (.arr (taken.reverse ++ items), rest) := by
  induction items generalizing fuel taken with
  | nil => exact absurd rfl hne
  | cons item items ih =>
      obtain ⟨fuel, rfl⟩ : ∃ k, fuel = k + 1 := ⟨fuel - 1, by omega⟩
      have hitem := hread item List.mem_cons_self
      cases items with
      | nil =>
          have hlast : value? fuel depth ((render item).toList ++ ']' :: rest)
              = some (item, ']' :: rest) := by
            apply hitem fuel _ _ (stops_cons rest (by simp))
            simp only [renderItems] at hfuel
            omega
          rw [renderItems, items?, hlast]
          show some (Json.arr (item :: taken).reverse, rest) = _
          rw [List.reverse_cons]
      | cons next items =>
          have hlength := congrArg List.length (toList_renderItems_cons item next items [])
          simp only [List.append_nil, List.length_append, List.length_cons] at hlength
          have hfirst : value? fuel depth ((render item).toList ++
              ',' :: ((renderItems (next :: items)).toList ++ ']' :: rest))
              = some (item, ',' :: ((renderItems (next :: items)).toList ++ ']' :: rest)) :=
            hitem fuel _ (by omega) (stops_cons _ (by simp))
          have hothers := @ih (by simp) (fun j hj => hread j (List.mem_cons_of_mem _ hj)) fuel
            (item :: taken) (by omega)
          rw [toList_renderItems_cons, items?, hfirst]
          show items? fuel depth (item :: taken) _ = _
          rw [hothers, List.reverse_cons, List.append_assoc, List.singleton_append]

theorem setField_of_not_mem {taken : List (String × Json)} {name : String} (value : Json)
    (h : name ∉ taken.map Prod.fst) : setField taken name value = taken ++ [(name, value)] := by
  rw [setField, List.filter_eq_self.2]
  intro entry hentry
  simp only [bne_iff_ne, ne_eq]
  rintro rfl
  exact h (List.mem_map_of_mem hentry)

theorem length_le_escaped (chars : List Char) :
    chars.length ≤ (chars.flatMap escapeChar).length := by
  induction chars with
  | nil => simp
  | cons c chars ih =>
      have hchar : 1 ≤ (escapeChar c).length := by
        unfold escapeChar
        split
        · simp
        · split <;> simp
      rw [List.flatMap_cons, List.length_append, List.length_cons]
      omega

/-- The name and the value of a field are read; a comma goes on to the next field, and a brace closes
the object. -/
theorem fields?_field {fuel : Nat} {name : String} {value : Json} (hread : Reads depth value)
    (taken : List (String × Json)) (rest : List Char)
    (hfuel : 2 * ((quote name).toList.length + (render value).toList.length) ≤ fuel) :
    fields? (fuel + 1) depth taken
        ((quote name).toList ++ ':' :: ((render value).toList ++ ',' :: rest))
      = fields? fuel depth (setField taken name value) rest ∧
    fields? (fuel + 1) depth taken
        ((quote name).toList ++ ':' :: ((render value).toList ++ '\x7d' :: rest))
      = some (.obj (setField taken name value), rest) := by
  have hlength := congrArg List.length (toList_quote_append name [])
  simp only [List.append_nil, List.length_append, List.length_cons] at hlength
  have hchars := length_le_escaped name.toList
  have hname : ∀ text, stringRest fuel [] (name.toList.flatMap escapeChar ++ '"' :: text)
      = some (name, text) := by
    intro text
    rw [stringRest_quoted name.toList [] text (by omega)]
    simp
  have hvalue : ∀ rest, Stops rest →
      value? fuel depth ((render value).toList ++ rest) = some (value, rest) :=
    fun rest hrest => hread fuel rest (by omega) hrest
  have hquote : isBlank '"' = false := rfl
  have hcolon : isBlank ':' = false := rfl
  constructor
  · have hcomma : isBlank ',' = false := rfl
    simp [toList_quote_append, fields?, hname, hvalue _ (stops_cons rest (.inl rfl)),
      skipBlanks_cons _ hquote, skipBlanks_cons _ hcolon, skipBlanks_cons _ hcomma]
  · have hbrace : isBlank '\x7d' = false := rfl
    simp [toList_quote_append, fields?, hname, hvalue _ (stops_cons rest (.inr (.inr rfl))),
      skipBlanks_cons _ hquote, skipBlanks_cons _ hcolon, skipBlanks_cons _ hbrace]

/-- The fields of an object are read one after another when no name comes twice. -/
theorem fields?_renderFields {fields : List (String × Json)} (hne : fields ≠ [])
    (hread : ∀ field ∈ fields, Reads depth field.2) {fuel : Nat} (taken : List (String × Json))
    (rest : List Char) (hnames : ((taken ++ fields).map Prod.fst).Nodup)
    (hfuel : 2 * (renderFields fields).toList.length < fuel) :
    fields? fuel depth taken ((renderFields fields).toList ++ '\x7d' :: rest)
      = some (.obj (taken ++ fields), rest) := by
  induction fields generalizing fuel taken with
  | nil => exact absurd rfl hne
  | cons field fields ih =>
      obtain ⟨name, value⟩ := field
      obtain ⟨fuel, rfl⟩ : ∃ k, fuel = k + 1 := ⟨fuel - 1, by omega⟩
      have hvalue : Reads depth value := hread (name, value) List.mem_cons_self
      have hnew : name ∉ taken.map Prod.fst := by
        rw [List.map_append, List.map_cons, List.nodup_append] at hnames
        intro hmem
        exact hnames.2.2 name hmem name List.mem_cons_self rfl
      cases fields with
      | nil =>
          have hlength := congrArg List.length (toList_renderFields_single name value [])
          simp only [List.append_nil, List.length_append, List.length_cons] at hlength
          rw [toList_renderFields_single, (fields?_field hvalue taken rest (by omega)).2,
            setField_of_not_mem value hnew]
      | cons next fields =>
          have hlength := congrArg List.length (toList_renderFields_cons name value next fields [])
          simp only [List.append_nil, List.length_append, List.length_cons] at hlength
          have hothers := @ih (by simp) (fun f hf => hread f (List.mem_cons_of_mem _ hf)) fuel
            (taken ++ [(name, value)]) (by simpa using hnames) (by omega)
          rw [toList_renderFields_cons, (fields?_field hvalue taken _ (by omega)).1,
            setField_of_not_mem value hnew, hothers, List.append_assoc, List.singleton_append]

theorem value?_of_items {fuel : Nat} {text : List Char} (htext : StartsValue text) :
    value? (fuel + 1) (depth + 1) ('[' :: text) = items? fuel depth [] text := by
  obtain ⟨c, tail, rfl, hblank, hclose⟩ := htext
  have hbracket : isBlank '[' = false := rfl
  simp only [value?, skipBlanks_cons _ hbracket, skipBlanks_cons tail hblank]
  simp [hclose]

theorem startsValue_renderItems {item : Json} (hitem : Plain depth item) (items : List Json)
    (rest : List Char) : StartsValue ((renderItems (item :: items)).toList ++ rest) := by
  cases items with
  | nil =>
      rw [renderItems]
      exact startsValue_render hitem rest
  | cons next items =>
      rw [toList_renderItems_cons]
      exact startsValue_render hitem _

theorem value?_of_fields {fuel : Nat} (field : String × Json) (fields : List (String × Json))
    (rest : List Char) :
    value? (fuel + 1) (depth + 1) ('\x7b' :: ((renderFields (field :: fields)).toList ++ rest))
      = fields? fuel depth [] ((renderFields (field :: fields)).toList ++ rest) := by
  obtain ⟨name, value⟩ := field
  cases fields with
  | nil =>
      rw [toList_renderFields_single, toList_quote_append]
      rfl
  | cons next fields =>
      rw [toList_renderFields_cons, toList_quote_append]
      rfl

end

/-- The text of a value is not empty, so there is a first step. -/
theorem exists_fuel {depth fuel : Nat} {j : Json} (hj : Plain depth j)
    (hfuel : 2 * (render j).toList.length ≤ fuel) : ∃ k, fuel = k + 1 := by
  obtain ⟨c, tail, htext, -, -⟩ := startsValue_render hj []
  have hlength := congrArg List.length htext
  rw [List.append_nil, List.length_cons] at hlength
  exact ⟨fuel - 1, by omega⟩

/-- A value is read from its text. -/
theorem reads_of_plain {depth : Nat} {j : Json} (hj : Plain depth j) : Reads depth j := by
  induction hj with
  | null =>
      intro fuel rest hfuel hrest
      obtain ⟨fuel, rfl⟩ := exists_fuel (@Plain.null 0) hfuel
      rw [render]
      rfl
  | bool b =>
      intro fuel rest hfuel hrest
      obtain ⟨fuel, rfl⟩ := exists_fuel (@Plain.bool 0 b) hfuel
      cases b with
      | false => rw [render]; rfl
      | true => rw [render]; rfl
  | @int depth n hlow hhigh =>
      intro fuel rest hfuel hrest
      obtain ⟨fuel, rfl⟩ := exists_fuel (@Plain.int depth n hlow hhigh) hfuel
      cases n with
      | ofNat n =>
          rw [toList_render_natural]
          -- no other value starts with a digit
          have hnumber := number?_toDigits hrest (@numberOf?_natural n (Int.ofNat_lt.1 hhigh))
          cases hdigits : Nat.toDigits 10 n with
          | nil => exact absurd hdigits Nat.toDigits_ne_nil
          | cons c digits =>
              rw [hdigits] at hnumber
              rw [List.cons_append, value?_of_digit fuel depth
                (@isDigit_of_mem_toDigits n c (by simp [hdigits]))]
              exact hnumber
      | negSucc n =>
          rw [toList_render_negative, List.cons_append]
          exact number?_toDigits hrest (@numberOf?_negative (n + 1) (by omega) (by omega))
  | str s =>
      intro fuel rest hfuel hrest
      obtain ⟨fuel, rfl⟩ := exists_fuel (@Plain.str 0 s) hfuel
      have hlength := congrArg List.length (toList_quote_append s [])
      simp only [List.append_nil, List.length_append, List.length_cons] at hlength
      have hchars := length_le_escaped s.toList
      rw [render] at hfuel ⊢
      rw [toList_quote_append]
      show Option.map _ (stringRest fuel [] _) = _
      rw [stringRest_quoted s.toList [] rest (by omega)]
      simp
  | @arr depth items hitems ih =>
      intro fuel rest hfuel hrest
      obtain ⟨fuel, rfl⟩ := exists_fuel (Plain.arr hitems) hfuel
      have hlength := congrArg List.length (toList_render_arr_append items [])
      simp only [List.append_nil, List.length_append, List.length_cons] at hlength
      rw [toList_render_arr_append]
      cases items with
      | nil => rw [renderItems]; rfl
      | cons item items =>
          rw [value?_of_items (startsValue_renderItems (hitems item List.mem_cons_self) items _),
            items?_renderItems (by simp) ih [] rest (by omega)]
          rfl
  | @obj depth fields hnames hfields ih =>
      intro fuel rest hfuel hrest
      obtain ⟨fuel, rfl⟩ := exists_fuel (Plain.obj hnames hfields) hfuel
      have hlength := congrArg List.length (toList_render_obj_append fields [])
      simp only [List.append_nil, List.length_append, List.length_cons] at hlength
      rw [toList_render_obj_append]
      cases fields with
      | nil => rw [renderFields]; rfl
      | cons field fields =>
          rw [value?_of_fields, fields?_renderFields (by simp) ih [] rest hnames (by omega)]
          rfl

/-- The text of a value is read as that value. -/
theorem parse?_render {j : Json} (hj : Plain maxDepth j) : parse? (render j) = some j := by
  have hvalue := reads_of_plain hj (2 * (render j).toList.length + 2) [] (by omega) stops_nil
  rw [List.append_nil] at hvalue
  simp only [parse?, hvalue]
  rfl

end Surety.Json
