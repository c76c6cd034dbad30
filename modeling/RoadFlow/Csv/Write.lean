/-!
# Writing comma-separated text

A field that holds a comma, a quote or a line end is written in quotes, its own quotes doubled. A
record's only field is never left blank.
-/

namespace RoadFlow.Csv

def needsQuotes (field : String) : Bool :=
  field.toList.any fun c => c = ',' || c = '"' || c = '\r' || c = '\n'

def quoteField (field : String) : String :=
  "\"" ++ String.join (field.toList.map fun c => if c = '"' then "\"\"" else c.toString) ++ "\""

def writeField (field : String) : String :=
  if needsQuotes field then quoteField field else field

/-- A record with its line end. -/
def writeRecord (fields : List String) : String :=
  let line := match fields with
    | [""] => quoteField ""
    | fields => ",".intercalate (fields.map writeField)
  line ++ "\n"

def writeRecords (records : List (List String)) : String :=
  String.join (records.map writeRecord)

end RoadFlow.Csv
