/-!
# Records of comma-separated text

The fields of each record as bytes, and the place where each record begins. A field in quotes may
hold commas and line ends, and two quotes there stand for one. Line feeds and carriage returns end
a record; empty lines are passed over.
-/

namespace RoadFlow.Csv

abbrev Bytes := List UInt8

/-- Where a record begins: its number, and the line and byte at which the one before it was left. -/
structure Place where
  record : Nat
  line : Nat
  byte : Nat
  deriving DecidableEq

structure Record where
  place : Place
  fields : List Bytes
  deriving DecidableEq

def comma : UInt8 := 0x2c

def quoteMark : UInt8 := 0x22

def lineFeed : UInt8 := 0x0a

def carriageReturn : UInt8 := 0x0d

def endsRecord (b : UInt8) : Bool := b == lineFeed || b == carriageReturn

/-- What the scanner is in the middle of. -/
inductive Mode where
  | between
  | fieldStart
  | plain
  | quoted
  | quoteSeen
  deriving DecidableEq

/-- The scanner: the place of the record under way, the line and byte reached, the fields read of
that record and the bytes of the field under way, both in reverse. -/
structure Scanner where
  mode : Mode
  place : Place
  line : Nat
  byte : Nat
  fields : List Bytes
  field : Bytes

namespace Scanner

/-- The record that ends here. -/
def record (s : Scanner) : Record := ⟨s.place, (s.field.reverse :: s.fields).reverse⟩

/-- Ready for the record after the one that ends here. -/
def afterRecord (s : Scanner) : Scanner :=
  { s with
    mode := .between
    place := ⟨s.place.record + 1, s.line, s.byte⟩
    fields := []
    field := [] }

def afterField (s : Scanner) : Scanner :=
  { s with mode := .fieldStart, fields := s.field.reverse :: s.fields, field := [] }

def take (s : Scanner) (mode : Mode) (b : UInt8) : Scanner :=
  { s with mode := mode, field := b :: s.field }

/-- A byte outside quotes, other than one that opens them. -/
def unquoted (s : Scanner) (b : UInt8) : Option Record × Scanner :=
  if b = comma then (none, s.afterField)
  else if endsRecord b then (some s.record, s.afterRecord)
  else (none, s.take .plain b)

/-- One byte, and the record that it ends. -/
def step (s : Scanner) (b : UInt8) : Option Record × Scanner :=
  let s := { s with byte := s.byte + 1, line := if b = lineFeed then s.line + 1 else s.line }
  match s.mode with
  | .between =>
    if endsRecord b then (none, s)
    else if b = quoteMark then (none, { s with mode := .quoted })
    else s.unquoted b
  | .fieldStart => if b = quoteMark then (none, { s with mode := .quoted }) else s.unquoted b
  | .plain => s.unquoted b
  | .quoted =>
    if b = quoteMark then (none, { s with mode := .quoteSeen }) else (none, s.take .quoted b)
  | .quoteSeen => if b = quoteMark then (none, s.take .quoted b) else s.unquoted b

/-- The records of the bytes to come. A record that the end of the bytes cuts off counts. -/
def run (s : Scanner) : Bytes → List Record
  | [] => if s.mode = .between then [] else [s.record]
  | b :: rest =>
    match s.step b with
    | (some r, s) => r :: s.run rest
    | (none, s) => s.run rest

end Scanner

/-- The records of a file, a mark of the byte order at its front left out. -/
def records (bytes : Bytes) : List Record :=
  let start (skipped : Nat) : Scanner := ⟨.between, ⟨0, 1, 0⟩, 1, skipped, [], []⟩
  match bytes with
  | 0xef :: 0xbb :: 0xbf :: rest => (start 3).run rest
  | bytes => (start 0).run bytes

end RoadFlow.Csv
