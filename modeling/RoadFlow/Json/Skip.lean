import RoadFlow.Json.Scan

/-!
# Values passed over

A value of a member that the reader does not know is only checked for its form.
-/

namespace RoadFlow.Json

/-- Digits that must be there. -/
def skipDigits (input : Bytes) : Except Fault Bytes :=
  match input.takeWhile isDigit with
  | [] => .error .malformed
  | _ => .ok (input.dropWhile isDigit)

def skipExponent (input : Bytes) : Except Fault Bytes :=
  match input with
  | b :: rest => if b = byte '+' ∨ b = byte '-' then skipDigits rest else skipDigits input
  | [] => .error .malformed

/-- A number without its minus sign. One that is cut short is malformed. -/
def skipNumber (input : Bytes) : Except Fault Bytes := do
  let digits := input.takeWhile isDigit
  if digits.isEmpty then .error .malformed
  else if 1 < digits.length ∧ digits.head? = some (byte '0') then .error .malformed
  else
    let rest := input.dropWhile isDigit
    match rest with
    | b :: tail =>
      if b = byte '.' then
        let rest ← skipDigits tail
        match rest with
        | e :: tail => if e = byte 'e' ∨ e = byte 'E' then skipExponent tail else .ok rest
        | [] => .ok rest
      else if b = byte 'e' ∨ b = byte 'E' then skipExponent tail
      else .ok rest
    | [] => .ok rest

/-- A string whose opening quote lies behind; its text need not be valid. -/
def skipString : Bytes → Except Fault Bytes
  | [] => .error .ended
  | b :: rest =>
    if b = byte '"' then .ok rest
    else if b = byte '\\' then
      match rest with
      | [] => .error .ended
      | e :: rest =>
        if e = byte 'u' then
          match rest with
          | h₁ :: h₂ :: h₃ :: h₄ :: rest =>
            if [h₁, h₂, h₃, h₄].all fun h => (hexDigit? h).isSome then skipString rest
            else .error .malformed
          | _ => .error .ended
        else if (escaped? e).isSome then skipString rest
        else .error .malformed
    else if b < 0x20 then .error .malformed
    else skipString rest

mutual

/-- Any value. -/
def skipValueWithin : Nat → Bytes → Except Fault Bytes
  | 0, _ => .error .ended
  | fuel + 1, input =>
    match skipBlanks input with
    | [] => .error .ended
    | b :: rest =>
      if b = byte 'n' then takeWord "ull".toList rest
      else if b = byte 't' then takeWord "rue".toList rest
      else if b = byte 'f' then takeWord "alse".toList rest
      else if b = byte '"' then skipString rest
      else if b = byte '-' then skipNumber rest
      else if isDigit b then skipNumber (b :: rest)
      else if b = byte '[' then
        match skipBlanks rest with
        | [] => .error .ended
        | c :: tail => if c = byte ']' then .ok tail else skipElements fuel (c :: tail)
      else if b = byte '{' then
        match skipBlanks rest with
        | [] => .error .ended
        | c :: tail => if c = byte '}' then .ok tail else skipMembers fuel (c :: tail)
      else .error .malformed

/-- The elements of an array up to its end. -/
def skipElements : Nat → Bytes → Except Fault Bytes
  | 0, _ => .error .ended
  | fuel + 1, input => do
    let rest ← skipValueWithin fuel input
    match skipBlanks rest with
    | [] => .error .ended
    | c :: tail =>
      if c = byte ',' then skipElements fuel tail
      else if c = byte ']' then .ok tail
      else .error .malformed

/-- The members of an object up to its end. -/
def skipMembers : Nat → Bytes → Except Fault Bytes
  | 0, _ => .error .ended
  | fuel + 1, input =>
    match skipBlanks input with
    | [] => .error .ended
    | q :: rest =>
      if q ≠ byte '"' then .error .malformed
      else do
        let rest ← skipString rest
        match skipBlanks rest with
        | [] => .error .ended
        | c :: tail =>
          if c ≠ byte ':' then .error .malformed
          else
            let rest ← skipValueWithin fuel tail
            match skipBlanks rest with
            | [] => .error .ended
            | c :: tail =>
              if c = byte ',' then skipMembers fuel tail
              else if c = byte '}' then .ok tail
              else .error .malformed

end

/-- The bytes after a value. Every step of the descent takes at least one byte in two. -/
def skipValue (input : Bytes) : Except Fault Bytes :=
  skipValueWithin (2 * input.length + 2) input

end RoadFlow.Json
