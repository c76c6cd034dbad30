import Mathlib.Tactic.SplitIfs
import RoadFlow.Csv.Table
import RoadFlow.Csv.Write
import RoadFlow.Proofs.Text.Utf8

/-!
# The round trip of comma-separated text

Records are read back as they were written, whatever their fields hold (`fields_records`). What a
scanner makes of bytes does not depend on the place that it has reached, so it is looked at without
(`Scanner.fieldsFrom`): a field without quotes is taken byte by byte up to its comma or line end,
one in quotes up to the quote that no other follows.
-/

namespace RoadFlow.Csv

open Text.Utf8 (encode)

namespace Scanner

variable {s t : Scanner} {mode : Mode} {fields : List Bytes} {field bytes rest : Bytes} {b : UInt8}

/-! ## Scanning without places -/

/-- Two scanners differ in their places only. -/
structure Agree (s t : Scanner) : Prop where
  mode : s.mode = t.mode
  fields : s.fields = t.fields
  field : s.field = t.field

theorem Agree.step (agree : Agree s t) (b : UInt8) :
    (s.step b).1.map Record.fields = (t.step b).1.map Record.fields ∧
      Agree (s.step b).2 (t.step b).2 := by
  obtain ⟨mode, place, line, byte, fields, field⟩ := s
  obtain ⟨mode', place', line', byte', fields', field'⟩ := t
  obtain ⟨rfl, rfl, rfl⟩ := agree
  cases mode
  all_goals
    simp only [Scanner.step, unquoted]
    split_ifs <;> exact ⟨rfl, rfl, rfl, rfl⟩

theorem Agree.run (agree : Agree s t) (bytes : Bytes) :
    (s.run bytes).map Record.fields = (t.run bytes).map Record.fields := by
  induction bytes generalizing s t with
  | nil =>
    rw [Scanner.run, Scanner.run, agree.mode]
    split
    · rfl
    · simp [record, agree.fields, agree.field]
  | cons b rest ih =>
    obtain ⟨same, next⟩ := agree.step b
    rw [Scanner.run, Scanner.run]
    rcases hs : s.step b with ⟨r, s'⟩
    rcases ht : t.step b with ⟨r', t'⟩
    rw [hs, ht] at same next
    cases r <;> cases r'
    · exact ih next
    · cases same
    · cases same
    · simpa using ⟨Option.some.inj same, ih next⟩

/-- The fields of the records to come, some fields and the bytes of one having been read. -/
def fieldsFrom (mode : Mode) (fields : List Bytes) (field bytes : Bytes) : List (List Bytes) :=
  ((⟨mode, ⟨0, 0, 0⟩, 0, 0, fields, field⟩ : Scanner).run bytes).map Record.fields

theorem fields_run (s : Scanner) (bytes : Bytes) :
    (s.run bytes).map Record.fields = fieldsFrom s.mode s.fields s.field bytes := by
  apply Agree.run
  exact ⟨rfl, rfl, rfl⟩

/-- No byte that ends a field or opens quotes. -/
def IsPlain (b : UInt8) : Prop := b ≠ comma ∧ b ≠ quoteMark ∧ endsRecord b = false

theorem fieldsFrom_plain (h : IsPlain b)
    (outside : mode = .between ∨ mode = .fieldStart ∨ mode = .plain) :
    fieldsFrom mode fields field (b :: rest) = fieldsFrom .plain fields (b :: field) rest := by
  obtain ⟨comma, quote, inside⟩ := h
  rcases outside with rfl | rfl | rfl
  all_goals
    rw [fieldsFrom, run]
    simp only [step, unquoted, comma, quote, inside, if_false, Bool.false_eq_true]
    exact fields_run _ rest

theorem fieldsFrom_comma (outside : mode ≠ .quoted) :
    fieldsFrom mode fields field (comma :: rest) =
      fieldsFrom .fieldStart (field.reverse :: fields) [] rest := by
  have apart : comma ≠ quoteMark ∧ endsRecord comma = false := by decide
  cases mode
  case quoted => exact absurd rfl outside
  all_goals
    rw [fieldsFrom, run]
    simp only [step, unquoted, apart, if_true, if_false, Bool.false_eq_true]
    exact fields_run _ rest

theorem fieldsFrom_lineFeed (outside : mode ≠ .quoted) (begun : mode ≠ .between) :
    fieldsFrom mode fields field (lineFeed :: rest) =
      (field.reverse :: fields).reverse :: fieldsFrom .between [] [] rest := by
  have apart : lineFeed ≠ quoteMark ∧ lineFeed ≠ comma ∧ endsRecord lineFeed = true := by decide
  cases mode
  case quoted => exact absurd rfl outside
  case between => exact absurd rfl begun
  all_goals
    rw [fieldsFrom, run]
    simp only [step, unquoted, apart, if_true, if_false, List.map_cons]
    exact congrArg _ (fields_run _ rest)

theorem fieldsFrom_open (start : mode = .between ∨ mode = .fieldStart) :
    fieldsFrom mode fields field (quoteMark :: rest) = fieldsFrom .quoted fields field rest := by
  have apart : endsRecord quoteMark = false := by decide
  rcases start with rfl | rfl
  all_goals
    rw [fieldsFrom, run]
    simp only [step, apart, if_true, if_false, Bool.false_eq_true]
    exact fields_run _ rest

theorem fieldsFrom_quoted (other : b ≠ quoteMark) :
    fieldsFrom .quoted fields field (b :: rest) = fieldsFrom .quoted fields (b :: field) rest := by
  rw [fieldsFrom, run]
  simp only [step, other, if_false]
  exact fields_run _ rest

theorem fieldsFrom_close :
    fieldsFrom .quoted fields field (quoteMark :: rest) =
      fieldsFrom .quoteSeen fields field rest := by
  rw [fieldsFrom, run]
  simp only [step, if_true]
  exact fields_run _ rest

theorem fieldsFrom_doubled :
    fieldsFrom .quoted fields field (quoteMark :: quoteMark :: rest) =
      fieldsFrom .quoted fields (quoteMark :: field) rest := by
  rw [fieldsFrom_close, fieldsFrom, run]
  simp only [step, if_true]
  exact fields_run _ rest

/-- Bytes without quotes, on the way through a field. -/
theorem fieldsFrom_plains (h : ∀ b ∈ bytes, IsPlain b)
    (outside : mode = .between ∨ mode = .fieldStart ∨ mode = .plain) (fields : List Bytes)
    (field rest : Bytes) :
    ∃ mode', fieldsFrom mode fields field (bytes ++ rest) =
        fieldsFrom mode' fields (bytes.reverse ++ field) rest ∧
      (bytes = [] ∧ mode' = mode ∨ mode' = .plain) := by
  induction bytes generalizing mode field with
  | nil => exact ⟨mode, rfl, .inl ⟨rfl, rfl⟩⟩
  | cons b bytes ih =>
    obtain ⟨mode', read, ended⟩ :=
      ih (fun c hc => h c (by simp [hc])) (.inr (.inr rfl)) (b :: field)
    refine ⟨mode', ?_, .inr ?_⟩
    · rw [List.cons_append, fieldsFrom_plain (h b (by simp)) outside, read]
      simp
    · rcases ended with ⟨-, rfl⟩ | rfl <;> rfl

theorem fieldsFrom_quoteds (h : ∀ b ∈ bytes, b ≠ quoteMark) :
    fieldsFrom .quoted fields field (bytes ++ rest) =
      fieldsFrom .quoted fields (bytes.reverse ++ field) rest := by
  induction bytes generalizing field with
  | nil => rfl
  | cons b bytes ih =>
    rw [List.cons_append, fieldsFrom_quoted (h b (by simp)), ih fun c hc => h c (by simp [hc])]
    simp

end Scanner

/-! ## Characters -/

/-- A byte below 128 is a character of its own. -/
theorem toNat_of_mem_encodeChar {c : Char} {b : UInt8} (h : b ∈ String.utf8EncodeChar c)
    (ascii : b.toNat < 128) : c.toNat = b.toNat := by
  have value : c.toNat = c.val.toNat := rfl
  rw [value]
  unfold String.utf8EncodeChar at h
  generalize c.val.toNat = v at h
  dsimp only at h
  split_ifs at h
  all_goals simp only [List.mem_cons, List.not_mem_nil, or_false] at h
  · rw [h, UInt8.toNat_ofNat']
    omega
  · rcases h with rfl | rfl <;> rw [UInt8.toNat_ofNat'] at ascii <;> omega
  · rcases h with rfl | rfl | rfl <;> rw [UInt8.toNat_ofNat'] at ascii <;> omega
  · rcases h with rfl | rfl | rfl | rfl <;> rw [UInt8.toNat_ofNat'] at ascii <;> omega

/-- A byte that stands for a character of its own does so wherever it stands. -/
theorem eq_of_mem_encodeChar {c d : Char} {b : UInt8} (h : b ∈ String.utf8EncodeChar c)
    (ascii : b.toNat < 128) (same : b.toNat = d.toNat) : c = d := by
  have value := toNat_of_mem_encodeChar h ascii
  rw [← Char.ofNat_toNat c, ← Char.ofNat_toNat d, value, same]

/-- The characters that stand in quotes only. -/
def isSpecial (c : Char) : Bool := c = ',' || c = '"' || c = '\r' || c = '\n'

theorem plain_of_mem_encodeChar {c : Char} (plain : isSpecial c = false) {b : UInt8}
    (h : b ∈ String.utf8EncodeChar c) : Scanner.IsPlain b := by
  simp only [isSpecial, Bool.or_eq_false_iff, decide_eq_false_iff_not] at plain
  obtain ⟨⟨⟨comma, quote⟩, carriage⟩, line⟩ := plain
  refine ⟨?_, ?_, ?_⟩
  · rintro rfl
    exact comma (eq_of_mem_encodeChar h (by decide) (by decide))
  · rintro rfl
    exact quote (eq_of_mem_encodeChar h (by decide) (by decide))
  · rw [endsRecord, Bool.or_eq_false_iff, beq_eq_false_iff_ne, beq_eq_false_iff_ne]
    constructor
    · rintro rfl
      exact line (eq_of_mem_encodeChar h (by decide) (by decide))
    · rintro rfl
      exact carriage (eq_of_mem_encodeChar h (by decide) (by decide))

theorem ne_quote_of_mem_encodeChar {c : Char} (other : c ≠ '"') {b : UInt8}
    (h : b ∈ String.utf8EncodeChar c) : b ≠ quoteMark := by
  rintro rfl
  exact other (eq_of_mem_encodeChar h (by decide) (by decide))

/-! ## Fields -/

section Fields

open Scanner

variable {mode : Mode} {fields : List Bytes} {rest : Bytes}

theorem plain_of_mem_encode {text : String} (plain : needsQuotes text = false) {b : UInt8}
    (h : b ∈ encode text) : IsPlain b := by
  rw [Text.Utf8.encode_eq, List.mem_flatMap] at h
  obtain ⟨c, inside, byte⟩ := h
  rw [needsQuotes, List.any_eq_false] at plain
  exact plain_of_mem_encodeChar (by simpa [isSpecial] using plain c inside) byte

theorem eq_empty_of_encode {text : String} (none : encode text = []) : text = "" := by
  have back := Text.Utf8.decode_encode text
  rw [none] at back
  exact (Except.ok.inj back).symm

/-- The characters of a text as they stand between quotes. -/
theorem fieldsFrom_escaped (text : List Char) (field : Bytes) :
    fieldsFrom .quoted fields field
        ((text.flatMap fun c => if c = '"' then ['"', '"'] else [c]).flatMap
          String.utf8EncodeChar ++ rest) =
      fieldsFrom .quoted fields ((text.flatMap String.utf8EncodeChar).reverse ++ field) rest := by
  induction text generalizing field with
  | nil => rfl
  | cons c text ih =>
    simp only [List.flatMap_cons, List.flatMap_append, List.append_assoc, List.reverse_append]
    by_cases quote : c = '"'
    · subst quote
      have byte : String.utf8EncodeChar '"' = [quoteMark] := by decide
      simp only [if_true, List.flatMap_cons, List.flatMap_nil, byte, List.append_nil]
      rw [List.append_assoc]
      exact fieldsFrom_doubled.trans (ih _)
    · simp only [if_neg quote, List.flatMap_cons, List.flatMap_nil, List.append_nil]
      rw [fieldsFrom_quoteds fun b => ne_quote_of_mem_encodeChar quote, ih]

theorem encode_quoteField (text : String) :
    encode (quoteField text) =
      quoteMark :: ((text.toList.flatMap fun c => if c = '"' then ['"', '"'] else [c]).flatMap
        String.utf8EncodeChar ++ [quoteMark]) := by
  have byte : encode "\"" = [quoteMark] := by decide
  have escaped : (String.join (text.toList.map fun c =>
      if c = '"' then "\"\"" else c.toString)).toList =
        text.toList.flatMap fun c => if c = '"' then ['"', '"'] else [c] := by
    rw [String.toList_join, List.flatMap_map]
    congr 1
    funext c
    split
    · rfl
    · simp
  rw [quoteField, Text.Utf8.encode_append, Text.Utf8.encode_append, byte, ← escaped,
    ← Text.Utf8.encode_eq]
  rfl

theorem fieldsFrom_quoteField (text : String) (start : mode = .between ∨ mode = .fieldStart) :
    fieldsFrom mode fields [] (encode (quoteField text) ++ rest) =
      fieldsFrom .quoteSeen fields (encode text).reverse rest := by
  rw [encode_quoteField, List.cons_append, fieldsFrom_open start, List.append_assoc,
    fieldsFrom_escaped, List.append_nil, ← Text.Utf8.encode_eq]
  exact fieldsFrom_close

/-- A written field is read up to its end. -/
theorem fieldsFrom_writeField (text : String) (start : mode = .between ∨ mode = .fieldStart)
    (fields : List Bytes) (rest : Bytes) :
    ∃ mode', fieldsFrom mode fields [] (encode (writeField text) ++ rest) =
        fieldsFrom mode' fields (encode text).reverse rest ∧
      mode' ≠ .quoted ∧ (mode' = .between → mode = .between ∧ text = "") := by
  rw [writeField]
  split
  · exact ⟨.quoteSeen, fieldsFrom_quoteField text start, by decide, nofun⟩
  · rename_i plain
    have plain : needsQuotes text = false := by simpa using plain
    obtain ⟨mode', read, ended⟩ := fieldsFrom_plains (fun b hb => plain_of_mem_encode plain hb)
      (start.imp_right .inl) fields [] rest
    rw [List.append_nil] at read
    refine ⟨mode', read, ?_, ?_⟩
    · rcases ended with ⟨-, rfl⟩ | rfl
      · rcases start with rfl | rfl <;> decide
      · decide
    · rintro rfl
      rcases ended with ⟨none, same⟩ | impossible
      · exact ⟨same.symm, eq_empty_of_encode none⟩
      · cases impossible

/-- Fields up to the end of their record. An empty field alone would make an empty line, so at the
front of a record it does not stand alone without quotes. -/
theorem fieldsFrom_intercalate (text : String) (texts : List String)
    (start : mode = .between ∨ mode = .fieldStart)
    (visible : mode = .between → text ≠ "" ∨ texts ≠ []) :
    fieldsFrom mode fields []
        (encode (",".intercalate ((text :: texts).map writeField)) ++ lineFeed :: rest) =
      (fields.reverse ++ (text :: texts).map encode) :: fieldsFrom .between [] [] rest := by
  induction texts generalizing mode fields text with
  | nil =>
    obtain ⟨mode', read, outside, blank⟩ :=
      fieldsFrom_writeField text start fields (lineFeed :: rest)
    have begun : mode' ≠ .between := by
      intro same
      obtain ⟨front, rfl⟩ := blank same
      rcases visible front with some | some <;> exact some rfl
    rw [List.map_singleton, String.intercalate_singleton, read,
      fieldsFrom_lineFeed outside begun]
    simp
  | cons next texts ih =>
    have byte : encode "," = [comma] := by decide
    obtain ⟨mode', read, outside, -⟩ := fieldsFrom_writeField text start fields
      (comma :: (encode (",".intercalate ((next :: texts).map writeField)) ++ lineFeed :: rest))
    rw [List.map_cons, List.map_cons, String.intercalate_cons_cons, Text.Utf8.encode_append,
      Text.Utf8.encode_append, byte, List.append_assoc, List.append_assoc]
    refine read.trans ?_
    rw [fieldsFrom_comma outside, ih next (.inr rfl) nofun]
    simp

end Fields

/-! ## Records -/

theorem writeRecords_append (front back : List (List String)) :
    writeRecords (front ++ back) = writeRecords front ++ writeRecords back := by
  simp [writeRecords]

theorem writeRecords_cons (record : List String) (records : List (List String)) :
    writeRecords (record :: records) = writeRecord record ++ writeRecords records := by
  simp [writeRecords]

open Scanner in
/-- A written record is read, and the scanner stands behind it. -/
theorem fieldsFrom_writeRecord {record : List String} (filled : record ≠ []) (rest : Bytes) :
    fieldsFrom .between [] [] (encode (writeRecord record) ++ rest) =
      record.map encode :: fieldsFrom .between [] [] rest := by
  have byte : encode "\n" = [lineFeed] := by decide
  by_cases blank : record = [""]
  · subst blank
    rw [writeRecord, Text.Utf8.encode_append, byte, List.append_assoc,
      fieldsFrom_quoteField "" (.inl rfl)]
    exact fieldsFrom_lineFeed (by decide) (by decide)
  · obtain ⟨text, texts, rfl⟩ := List.exists_cons_of_ne_nil filled
    have line : writeRecord (text :: texts) =
        ",".intercalate ((text :: texts).map writeField) ++ "\n" := by
      rw [writeRecord]
      exact blank
    rw [line, Text.Utf8.encode_append, byte, List.append_assoc]
    refine fieldsFrom_intercalate text texts (.inl rfl) fun _ => ?_
    cases texts with
    | nil =>
      left
      rintro rfl
      exact blank rfl
    | cons next texts => exact .inr (List.cons_ne_nil next texts)

/-- Records are read back as they were written, but for a mark of the byte order that would be taken
from their front. -/
theorem fields_records {written : List (List String)} (filled : ∀ r ∈ written, r ≠ [])
    (unmarked : (encode (writeRecords written)).head? ≠ some 0xef) :
    (records (encode (writeRecords written))).map Record.fields =
      written.map (·.map encode) := by
  have scanned : (records (encode (writeRecords written))).map Record.fields =
      Scanner.fieldsFrom .between [] [] (encode (writeRecords written)) := by
    rw [records]
    · exact Scanner.fields_run _ _
    · intro rest marked
      rw [marked] at unmarked
      exact unmarked rfl
  rw [scanned]
  clear unmarked scanned
  induction written with
  | nil => rfl
  | cons record written ih =>
    rw [writeRecords_cons, Text.Utf8.encode_append,
      fieldsFrom_writeRecord (filled record (by simp)),
      ih fun r hr => filled r (by simp [hr]), List.map_cons]

/-! ## Numbers -/

open Decimal

theorem digitValue?_digit {c : Char} (digit : c.isDigit = true) :
    digitValue? 10 c = some (c.toNat - '0'.toNat) := by
  rw [Char.isDigit, Bool.and_eq_true, decide_eq_true_iff, decide_eq_true_iff] at digit
  have value : c.toNat - '0'.toNat < 10 := by
    have high : c.toNat ≤ '9'.toNat := digit.2
    simp at high ⊢
    omega
  have between : '0' ≤ c ∧ c ≤ '9' := digit
  rw [digitValue?, if_pos between]
  simpa using value

theorem readDigits_ofDigitChars {limit acc : Nat} {digits : List Char}
    (decimal : ∀ c ∈ digits, c.isDigit = true) (small : Nat.ofDigitChars 10 digits acc < limit) :
    readDigits 10 limit acc digits = .ok (Nat.ofDigitChars 10 digits acc) := by
  induction digits generalizing acc with
  | nil => rfl
  | cons c digits ih =>
    rw [Nat.ofDigitChars_cons] at small ⊢
    have grows := @Nat.ofDigitChars_eq_ofDigitChars_zero digits (10 * acc + (c.toNat - '0'.toNat))
    have power := Nat.mul_le_mul_right (10 * acc + (c.toNat - '0'.toNat))
      (Nat.one_le_pow digits.length 10 (by decide))
    rw [readDigits, digitValue?_digit (decimal c (by simp))]
    dsimp only
    rw [if_neg (by omega)]
    exact ih (fun d hd => decimal d (by simp [hd])) small

/-- A number is read back from its digits. -/
theorem readNatural_toString {limit n : Nat} (small : n < limit) :
    readNatural limit (toString n) = .ok n := by
  have decimal (c : Char) (h : c ∈ Nat.toDigits 10 n) : c.isDigit = true :=
    Nat.isDigit_of_mem_toDigits (by decide) (by decide) h
  have value : Nat.ofDigitChars 10 (Nat.toDigits 10 n) 0 = n := Nat.ofDigitChars_ten_toDigits
  have text : (toString n).toList = Nat.toDigits 10 n := Nat.toList_repr
  have filled : Nat.toDigits 10 n ≠ [] := Nat.toDigits_ne_nil
  have read := readDigits_ofDigitChars decimal (value.symm ▸ small)
  rw [value] at read
  rw [readNatural, text]
  generalize Nat.toDigits 10 n = digits at decimal filled read
  have plain : Decimal.readNatural 10 limit digits = .ok n := by
    rw [Decimal.readNatural]
    · exact read
    · exact filled
    · rintro rfl
      exact absurd (decimal '+' (by simp)) (by decide)
    · rintro rest rfl
      exact absurd (decimal '+' (by simp)) (by decide)
  split
  · exact absurd (decimal 'x' (by simp)) (by decide)
  · rw [plain]
    rfl

/-! ## Tables -/

theorem decodeFields_encode (index : Nat) (texts : List String) :
    decodeFields index (texts.map encode) = .ok texts := by
  induction texts generalizing index with
  | nil => rfl
  | cons text texts ih =>
    rw [List.map_cons, decodeFields, Text.Utf8.decode_encode]
    dsimp only
    rw [ih]
    rfl

variable {schema : Schema} {header : List String}

theorem readRow_written {r : Record} {line : List String} {row : Row schema.columns}
    (fields : r.fields = line.map encode) (width : line.length = header.length)
    (read : Row.fromNames schema.columns (Slots.none _) 0 header line = .ok row) :
    readRow schema (some header) header.length r = .ok row := by
  have same : ¬ r.fields.length ≠ header.length := by simp [fields, width]
  rw [readRow, if_neg same, fields, decodeFields_encode]
  dsimp only
  rw [read]
  rfl

/-- The rows of a table that was written with the names of its columns in any order. -/
theorem rows_written {α : Type} {items : List α} {line : α → List String}
    {row : α → Row schema.columns} (named : header ≠ [])
    (width : ∀ x ∈ items, (line x).length = header.length)
    (unmarked : (encode (writeRecords (header :: items.map line))).head? ≠ some 0xef)
    (read : ∀ x ∈ items,
      Row.fromNames schema.columns (Slots.none _) 0 header (line x) = .ok (row x)) :
    rows schema (encode (writeRecords (header :: items.map line))) =
      items.map fun x => .ok (row x) := by
  have filled : ∀ r ∈ header :: items.map line, r ≠ [] := by
    intro r hr
    rcases List.mem_cons.mp hr with rfl | below
    · exact named
    · obtain ⟨x, hx, rfl⟩ := List.mem_map.mp below
      intro none
      exact named (List.eq_nil_of_length_eq_zero (by rw [← width x hx, none, List.length_nil]))
  have scanned := fields_records filled unmarked
  rw [rows]
  cases found : records (encode (writeRecords (header :: items.map line))) with
  | nil =>
    rw [found] at scanned
    cases scanned
  | cons first rest =>
    rw [found, List.map_cons, List.map_cons, List.cons.injEq] at scanned
    obtain ⟨front, scanned⟩ := scanned
    dsimp only
    rw [front, decodeFields_encode, List.length_map]
    clear found filled unmarked
    show rest.map (readRow schema (some header) header.length) = _
    induction items generalizing rest with
    | nil =>
      rw [List.map_eq_nil_iff.mp scanned]
      rfl
    | cons x items ih =>
      obtain ⟨r, rest, rfl, fields, scanned⟩ := List.map_eq_cons_iff.mp scanned
      rw [List.map_cons, List.map_cons,
        readRow_written fields (width x (by simp)) (read x (by simp)),
        ih (fun y hy => width y (by simp [hy])) (fun y hy => read y (by simp [hy])) rest scanned]

end RoadFlow.Csv
