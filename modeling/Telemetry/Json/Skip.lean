import Telemetry.Json.Value

/-!
# Values nobody reads

A field that is not asked for is skipped. Its value is checked for its form and
for nothing else: strings need not be UTF-8, numbers need not fit. Lists and
objects may be nested to any depth, so the skipper keeps the frames it is inside
of on a stack instead of calling itself.
-/

namespace Telemetry.Json

/-- What encloses a value. -/
inductive Frame where
  /-- A list. -/
  | list
  /-- An object. -/
  | object
deriving DecidableEq, Repr

namespace Frame

/-- The octet that ends a frame. -/
def closer : Frame → UInt8
  | .list => ascii ']'
  | .object => ascii '}'

/-- The fault that neither a comma nor the end of a frame follows. -/
def endDue : Frame → Fault
  | .list => .listEndDue
  | .object => .objectEndDue

/-- The fault that the text ends inside a frame. -/
def textEnds : Frame → Fault
  | .list => .endInList
  | .object => .endInObject

end Frame

/-- An exponent, from behind its letter. -/
def skipPower (text : Octets) : Except Stop Octets :=
  let digits := match text with
    | [] => []
    | b :: rest => if b = ascii '+' ∨ b = ascii '-' then rest else b :: rest
  match digits with
  | [] => stopAt .invalidNumber []
  | b :: rest =>
    if isOctetDigit b then .ok (rest.dropWhile isOctetDigit) else stopAt .invalidNumber rest

/-- An exponent, or none. -/
def skipScale (text : Octets) : Except Stop Octets :=
  match text with
  | [] => .ok []
  | b :: rest => if b = ascii 'e' ∨ b = ascii 'E' then skipPower rest else .ok (b :: rest)

/-- What follows the whole part of a number. -/
def skipTail (text : Octets) : Except Stop Octets :=
  match text with
  | [] => .ok []
  | b :: rest =>
    if b = ascii '.' then
      if startsWithDigit rest then skipScale (rest.dropWhile isOctetDigit)
      else stopBefore .invalidNumber rest
    else skipScale (b :: rest)

/-- A number behind its sign. -/
def skipNumber (text : Octets) : Except Stop Octets :=
  match text with
  | [] => stopAt .invalidNumber []
  | b :: rest =>
    if b = ascii '0' then
      if startsWithDigit rest then stopBefore .invalidNumber rest else skipTail rest
    else if isOctetDigit b then skipTail (rest.dropWhile isOctetDigit)
    else stopAt .invalidNumber rest

/-- A value that is neither a list nor an object. -/
def skipScalar (text : Octets) : Except Stop Octets :=
  match text with
  | [] => stopBefore .endInValue []
  | b :: rest =>
    if b = ascii 'n' then readWord ['u', 'l', 'l'] rest
    else if b = ascii 't' then readWord ['r', 'u', 'e'] rest
    else if b = ascii 'f' then readWord ['a', 'l', 's', 'e'] rest
    else if b = ascii '-' then skipNumber rest
    else if isOctetDigit b then skipNumber (b :: rest)
    else if b = ascii '"' then skipChars rest
    else stopBefore .valueDue (b :: rest)

/-- A key with its colon. -/
def skipKey (text : Octets) : Except Stop Octets :=
  match skipSpace text with
  | [] => stopBefore .endInObject []
  | b :: rest =>
    if b = ascii '"' then do
      let text ← skipChars rest
      readColon text
    else stopBefore .keyDue (b :: rest)

/-- Where the skipper stands. -/
inductive SkipPoint where
  /-- A value is due. -/
  | value
  /-- A value has just ended. -/
  | ended
deriving DecidableEq, Repr

namespace Frame

/-- The frame that an octet opens. -/
def ofOpener? (b : UInt8) : Option Frame :=
  if b = ascii '[' then some .list else if b = ascii '{' then some .object else none

/-- The text from the next value in a frame on. In an object a key comes first. -/
def toValue (frame : Frame) (text : Octets) : Except Stop Octets :=
  match frame with
  | .list => .ok text
  | .object => skipKey text

end Frame

/-- What is left behind the outermost value, when the frames still to be left are
`frames`. Every turn takes an octet, so there is fuel enough if it is as long as the
text. -/
def skipFrom : (fuel : Octets) → SkipPoint → List Frame → Octets → Except Stop Octets
  | _, .ended, [], text => .ok text
  | [], .value, _, text => stopBefore .endInValue text
  | [], .ended, frame :: _, text => stopBefore frame.textEnds text
  | _ :: fuel, .value, frames, text =>
    match skipSpace text with
    | [] => stopBefore .endInValue []
    | b :: rest =>
      match Frame.ofOpener? b with
      | none => do
        let rest ← skipScalar (b :: rest)
        skipFrom fuel .ended frames rest
      | some frame =>
        match skipSpace rest with
        | [] => stopBefore frame.textEnds []
        | c :: inside =>
          if c = frame.closer then skipFrom fuel .ended frames inside
          else do
            let rest ← frame.toValue (c :: inside)
            skipFrom fuel .value (frame :: frames) rest
  | _ :: fuel, .ended, frame :: frames, text =>
    match skipSpace text with
    | [] => stopBefore frame.textEnds []
    | b :: rest =>
      if b = frame.closer then skipFrom fuel .ended frames rest
      else if b = ascii ',' then do
        let rest ← frame.toValue rest
        skipFrom fuel .value (frame :: frames) rest
      else stopBefore frame.endDue (b :: rest)

/-- What is left of a text behind a value that nobody reads. -/
def skipValue (text : Octets) : Except Stop Octets := skipFrom text .value [] text

end Telemetry.Json
