import RoadFlow.Fit.Settings
import RoadFlow.Json.Skip

/-!
# Settings as documents

A JSON object with any of the settings, or an array with the first of them in order. Settings left
out keep their standard values, unknown members are passed over, and a setting is given once.
-/

namespace RoadFlow.FitSettings

open Json (Bytes Fault Number)

/-- The settings in the order of an array. -/
inductive Setting where
  | steps
  | learningRate
  | beta1
  | beta2
  | epsilon
  | logInterval
  | saveInterval
  | useBias
  | seed
  deriving DecidableEq

namespace Setting

def all : List Setting :=
  [steps, learningRate, beta1, beta2, epsilon, logInterval, saveInterval, useBias, seed]

def name : Setting → String
  | steps => "steps"
  | learningRate => "learning_rate"
  | beta1 => "beta1"
  | beta2 => "beta2"
  | epsilon => "epsilon"
  | logInterval => "log_interval"
  | saveInterval => "save_interval"
  | useBias => "use_bias"
  | seed => "seed"

def ofName? (name : String) : Option Setting := all.find? fun s => s.name == name

end Setting

/-- The number that comes next, or the fault of what comes instead. -/
def readNumberValue (input : Bytes) : Except Fault (Number × Bytes) :=
  match Json.skipBlanks input with
  | [] => .error .ended
  | b :: rest =>
    if b = Json.byte '-' ∨ Json.isDigit b then Json.readNumber (b :: rest)
    else if b = Json.byte '"' then
      match Json.readString rest with
      | .ok _ => .error .mismatch
      | .error fault => .error fault
    else if b = Json.byte 'n' then mismatchAfter "ull" rest
    else if b = Json.byte 't' then mismatchAfter "rue" rest
    else if b = Json.byte 'f' then mismatchAfter "alse" rest
    else if b = Json.byte '[' ∨ b = Json.byte '{' then .error .mismatch
    else .error .malformed
where
  /-- A word is of another form, but must be whole. -/
  mismatchAfter (word : String) (rest : Bytes) : Except Fault (Number × Bytes) :=
    match Json.takeWord word.toList rest with
    | .ok _ => .error .mismatch
    | .error fault => .error fault

def readCount (input : Bytes) : Except Fault (Nat × Bytes) := do
  let (number, rest) ← readNumberValue input
  match number with
  | .natural n => .ok (n, rest)
  | _ => .error .mismatch

/-- A number of 32 bits; whole numbers are rounded once, others by way of 64 bits. -/
def readSingle (input : Bytes) : Except Fault (Float32 × Bytes) := do
  let (number, rest) ← readNumberValue input
  match number with
  | .natural n => .ok (n.toUInt64.toFloat32, rest)
  | .negative n => .ok (-n.toUInt64.toFloat32, rest)
  | .real x => .ok (narrowed x, rest)

def readFlag (input : Bytes) : Except Fault (Bool × Bytes) :=
  match Json.skipBlanks input with
  | [] => .error .ended
  | b :: rest =>
    if b = Json.byte 't' then (Json.takeWord "rue".toList rest).map (true, ·)
    else if b = Json.byte 'f' then (Json.takeWord "alse".toList rest).map (false, ·)
    else match readNumberValue (b :: rest) with
      | .ok _ => .error .mismatch
      | .error fault => .error fault

/-- The settings with one of them read from what comes next. -/
def readSetting (c : FitSettings Float32) (s : Setting) (input : Bytes) :
    Except Fault (FitSettings Float32 × Bytes) :=
  match s with
  | .steps => (readCount input).map fun (n, rest) => ({ c with steps := n }, rest)
  | .learningRate => (readSingle input).map fun (x, rest) => ({ c with learningRate := x }, rest)
  | .beta1 => (readSingle input).map fun (x, rest) => ({ c with beta1 := x }, rest)
  | .beta2 => (readSingle input).map fun (x, rest) => ({ c with beta2 := x }, rest)
  | .epsilon => (readSingle input).map fun (x, rest) => ({ c with epsilon := x }, rest)
  | .logInterval => (readCount input).map fun (n, rest) => ({ c with logInterval := n }, rest)
  | .saveInterval => (readCount input).map fun (n, rest) => ({ c with saveInterval := n }, rest)
  | .useBias => (readFlag input).map fun (b, rest) => ({ c with useBias := b }, rest)
  | .seed => (readCount input).map fun (n, rest) => ({ c with seed := n.toUInt64 }, rest)

/-- The colon after a name. -/
def readColon (input : Bytes) : Except Fault Bytes :=
  match Json.skipBlanks input with
  | [] => .error .ended
  | b :: rest => if b = Json.byte ':' then .ok rest else .error .malformed

/-- The value of a member whose name lies behind. -/
def readMember (c : FitSettings Float32) (seen : List Setting) (name : String) (input : Bytes) :
    Except Fault (FitSettings Float32 × List Setting × Bytes) :=
  match Setting.ofName? name with
  | some s =>
    if s ∈ seen then .error .mismatch
    else do
      let (c, rest) ← readSetting c s (← readColon input)
      return (c, s :: seen, rest)
  | none => do
    let rest ← Json.skipValue (← readColon input)
    return (c, seen, rest)

/-- The members of an object up to its end. -/
def readMembers : Nat → FitSettings Float32 → List Setting → Bytes →
    Except Fault (FitSettings Float32 × Bytes)
  | 0, _, _, _ => .error .ended
  | fuel + 1, c, seen, input =>
    match Json.skipBlanks input with
    | [] => .error .ended
    | b :: rest =>
      if b ≠ Json.byte '"' then .error .malformed
      else do
        let (name, rest) ← Json.readString rest
        let (c, seen, rest) ← readMember c seen name rest
        match Json.skipBlanks rest with
        | [] => .error .ended
        | b :: rest =>
          if b = Json.byte ',' then readMembers fuel c seen rest
          else if b = Json.byte '}' then .ok (c, rest)
          else .error .malformed

/-- The settings of an object whose opening brace lies behind. -/
def readObject (input : Bytes) : Except Fault (FitSettings Float32 × Bytes) :=
  match Json.skipBlanks input with
  | [] => .error .ended
  | b :: rest =>
    if b = Json.byte '}' then .ok (standard, rest)
    else readMembers (input.length + 1) standard [] (b :: rest)

/-- The given settings from the elements of an array, as far as it has them. -/
def readElements (c : FitSettings Float32) : List Setting → Bytes →
    Except Fault (FitSettings Float32 × Bytes)
  | [], input =>
    match Json.skipBlanks input with
    | [] => .error .ended
    | b :: rest => if b = Json.byte ']' then .ok (c, rest) else .error .malformed
  | s :: settings, input => do
    let (c, rest) ← readSetting c s input
    match Json.skipBlanks rest with
    | [] => .error .ended
    | b :: rest =>
      if b = Json.byte ']' then .ok (c, rest)
      else if b = Json.byte ',' && !settings.isEmpty then
        match Json.skipBlanks rest with
        | [] => .error .ended
        | b :: rest =>
          if b = Json.byte ']' then .error .malformed else readElements c settings (b :: rest)
      else .error .malformed

/-- The settings of an array whose opening bracket lies behind. -/
def readArray (input : Bytes) : Except Fault (FitSettings Float32 × Bytes) :=
  match Json.skipBlanks input with
  | [] => .error .ended
  | b :: rest =>
    if b = Json.byte ']' then .ok (standard, rest)
    else readElements standard Setting.all (b :: rest)

/-- The settings that a whole document gives. -/
def ofDocument (input : Bytes) : Except Fault (FitSettings Float32) := do
  let (c, rest) ← match Json.skipBlanks input with
    | [] => .error .ended
    | b :: rest =>
      if b = Json.byte '{' then readObject rest
      else if b = Json.byte '[' then readArray rest
      else match readNumberValue (b :: rest) with
        | .ok _ => .error .mismatch
        | .error fault => .error fault
  if (Json.skipBlanks rest).isEmpty then .ok c else .error .malformed

def settingText (c : FitSettings Float32) : Setting → String
  | .steps => toString c.steps
  | .learningRate => Decimal.Format.single.document c.learningRate.toBits.toNat
  | .beta1 => Decimal.Format.single.document c.beta1.toBits.toNat
  | .beta2 => Decimal.Format.single.document c.beta2.toBits.toNat
  | .epsilon => Decimal.Format.single.document c.epsilon.toBits.toNat
  | .logInterval => toString c.logInterval
  | .saveInterval => toString c.saveInterval
  | .useBias => if c.useBias then "true" else "false"
  | .seed => toString c.seed.toNat

/-- The settings as an object, one member a line. -/
def document (c : FitSettings Float32) : String :=
  let members := Setting.all.map fun s => "  \"" ++ s.name ++ "\": " ++ c.settingText s
  "\x7b\n" ++ ",\n".intercalate members ++ "\n\x7d"

end RoadFlow.FitSettings
