import RoadFlow.Csv.Record
import RoadFlow.Decimal.Read
import RoadFlow.Storage.FileTree
import RoadFlow.Text.Utf8

/-!
# Tables with named columns

The records of a file read as rows of a known set of columns. The first record names the columns,
in any order and among others; every row fills all of them.
-/

namespace RoadFlow.Csv

/-- What a column holds. -/
inductive Kind where
  | text
  | natural (limit : Nat)
  | double
  | single
  deriving DecidableEq

abbrev Kind.Value : Kind → Type
  | .text => String
  | .natural _ => Nat
  | .double => Float
  | .single => Float32

structure Column where
  name : String
  kind : Kind
  deriving DecidableEq

/-- The columns of a table and the name of its rows. -/
structure Schema where
  name : String
  columns : List Column

/-- One value for each column. -/
abbrev Row : List Column → Type
  | [] => Unit
  | c :: rest => c.kind.Value × Row rest

/-- A row under way: the values read so far. -/
abbrev Slots : List Column → Type
  | [] => Unit
  | c :: rest => Option c.kind.Value × Slots rest

/-- Why a field is no value of its column. -/
inductive CellFault where
  | natural (fault : Decimal.NaturalFault)
  | real (fault : Decimal.RealFault)
  deriving DecidableEq

def CellFault.message : CellFault → String
  | .natural fault => fault.message
  | .real fault => fault.message

/-- Why a record is no row. -/
inductive RowFault where
  | cell (field : Nat) (fault : CellFault)
  | missing (column : String)
  | duplicate (column : String)
  | short (row : String) (found expected : Nat)
  deriving DecidableEq

def RowFault.message : RowFault → String
  | .cell field fault => s!"field {field}: {fault.message}"
  | .missing column => "missing field `" ++ column ++ "`"
  | .duplicate column => "duplicate field `" ++ column ++ "`"
  | .short row found expected =>
    s!"invalid length {found}, expected struct {row} with {expected} elements"

/-- Why a file is no table: a record of another width than the first, bytes that are no text, or a
record that is no row. -/
inductive Fault where
  | width (place : Place) (found expected : Nat)
  | encoding (place : Place) (field valid : Nat)
  | row (place : Place) (fault : RowFault)
  deriving DecidableEq

/-- What is said of a field that is text up to some byte only. -/
def encodingText (field valid : Nat) : String :=
  s!"invalid utf-8: invalid UTF-8 in field {field} near byte index {valid}"

def Fault.message : Fault → String
  | .width p found expected =>
    s!"CSV error: record {p.record} (line: {p.line}, byte: {p.byte}): " ++
      s!"found record with {found} fields, but the previous record has {expected} fields"
  | .encoding p field valid =>
    s!"CSV parse error: record {p.record} (line {p.line}, field: {field}, byte: {p.byte}): " ++
      encodingText field valid
  | .row p fault =>
    s!"CSV deserialize error: record {p.record} (line: {p.line}, byte: {p.byte}): {fault.message}"

/-- Whole numbers may be written in hexadecimal after `0x`. -/
def readNatural (limit : Nat) (field : String) : Except CellFault Nat :=
  let read := match field.toList with
    | '0' :: 'x' :: digits => Decimal.readNatural 16 limit digits
    | digits => Decimal.readNatural 10 limit digits
  read.mapError .natural

/-- The value that a field holds for a column. -/
def Kind.read : (k : Kind) → String → Except CellFault k.Value
  | .text, field => .ok field
  | .natural limit, field => readNatural limit field
  | .double, field =>
    match Decimal.Format.double.read field.toList with
    | .ok bits => .ok (Float.ofBits bits.toUInt64)
    | .error fault => .error (.real fault)
  | .single, field =>
    match Decimal.Format.single.read field.toList with
    | .ok bits => .ok (Float32.ofBits bits.toUInt32)
    | .error fault => .error (.real fault)

namespace Slots

def none : (columns : List Column) → Slots columns
  | [] => ()
  | _ :: rest => (Option.none, Slots.none rest)

/-- The row with a field read into the column of that name. Other columns are passed over. -/
def fill (name field : String) (index : Nat) :
    (columns : List Column) → Slots columns → Except RowFault (Slots columns)
  | [], slots => .ok slots
  | c :: rest, (value, slots) =>
    if c.name = name then
      if value.isSome then .error (.duplicate name)
      else match c.kind.read field with
        | .ok v => .ok (some v, slots)
        | .error fault => .error (.cell index fault)
    else match fill name field index rest slots with
      | .ok slots => .ok (value, slots)
      | .error fault => .error fault

/-- The finished row, or its first missing column. -/
def finish : (columns : List Column) → Slots columns → Except RowFault (Row columns)
  | [], () => .ok ()
  | c :: rest, (value, slots) =>
    match value with
    | Option.none => .error (.missing c.name)
    | some v =>
      match finish rest slots with
      | .ok row => .ok (v, row)
      | .error fault => .error fault

end Slots

namespace Row

/-- The fields of a record read by the names over them, from the left. -/
def fromNames (columns : List Column) (slots : Slots columns) (index : Nat) :
    List String → List String → Except RowFault (Row columns)
  | name :: names, field :: fields =>
    match slots.fill name field index columns with
    | .ok slots => fromNames columns slots (index + 1) names fields
    | .error fault => .error fault
  | _, _ => slots.finish columns

/-- The fields of a record read in the order of the columns; more fields are passed over. -/
def fromOrder (schema : Schema) (index : Nat) :
    (columns : List Column) → List String → Except RowFault (Row columns)
  | [], _ => .ok ()
  | _ :: _, [] => .error (.short schema.name index schema.columns.length)
  | c :: rest, field :: fields =>
    match c.kind.read field with
    | .error fault => .error (.cell index fault)
    | .ok v =>
      match fromOrder schema (index + 1) rest fields with
      | .ok row => .ok (v, row)
      | .error fault => .error fault

end Row

/-- The fields as text, or the first that is none and how much of it is. -/
def decodeFields (index : Nat) : List Bytes → Except (Nat × Nat) (List String)
  | [] => .ok []
  | field :: rest =>
    match Text.Utf8.decode field with
    | .error fault => .error (index, fault.valid)
    | .ok text => (decodeFields (index + 1) rest).map (text :: ·)

/-- The row of a record below a header of the given width. A header that is no text names nothing,
and the order of the columns counts. -/
def readRow (schema : Schema) (header? : Option (List String)) (width : Nat) (r : Record) :
    Except Fault (Row schema.columns) :=
  if r.fields.length ≠ width then .error (.width r.place r.fields.length width)
  else match decodeFields 0 r.fields with
    | .error (field, valid) => .error (.encoding r.place field valid)
    | .ok fields =>
      let row := match header? with
        | some header => Row.fromNames schema.columns (Slots.none _) 0 header fields
        | none => Row.fromOrder schema 0 schema.columns fields
      row.mapError (.row r.place)

/-- The rows of a file, each with its own fault. -/
def rows (schema : Schema) (bytes : Bytes) : List (Except Fault (Row schema.columns)) :=
  match records bytes with
  | [] => []
  | header :: rest =>
    let names := (decodeFields 0 header.fields).toOption
    rest.map (readRow schema names header.fields.length)

/-- The rows of what a path holds. A directory has none. -/
def rowsOfEntry (schema : Schema) : Storage.Entry → List (Except Fault (Row schema.columns))
  | .file bytes => rows schema bytes
  | .directory => []

end RoadFlow.Csv
