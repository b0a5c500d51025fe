import ResponseCache.Decimal.Natural
import ResponseCache.Failure
import ResponseCache.Text.Blank
import ResponseCache.Wire.Encode

/-!
# Reading the wire form

The reader takes more than the writer makes: line feeds alone as line ends, header names in any
case, no blank after the colon, any reason phrase. How much of what follows the header fields is the
body depends on the method of the request that the response answers. Of the header fields it takes
as many as a collection has room for; one more, and it crashes.
-/

namespace ResponseCache.Wire

/-- The octets before the first blank line and those after it. -/
def splitHead? : Bytes → Option (Bytes × Bytes)
  | 13 :: 10 :: 13 :: 10 :: rest => some ([], rest)
  | b :: rest => (splitHead? rest).map fun s => (b :: s.1, s.2)
  | [] => none

/-- The line without a carriage return at its end. -/
def chomp (line : Bytes) : Bytes :=
  if line.getLast? = some 13 then line.dropLast else line

/-- The lines of the octets before the blank line. -/
def lines (head : Bytes) : List Bytes :=
  (head.splitOn 10).map chomp

def statusCode? (s : List Char) : Option Status := do
  guard (s.length = 3)
  Status.of? (← Decimal.value? s)

/-- The version and status of a status line: two words with one blank between them, and a reason
phrase after another blank, which may be absent and is not looked at. -/
def readStatusLine (line : Bytes) : Except WireFault (Version × Status) :=
  let read : Option (Version × Status) := do
    let s ← line.ofUtf8?
    let version ← Version.ofName? (String.ofList (s.takeWhile (· != ' ')))
    let status ← statusCode? ((s.dropWhile (· != ' ')).tail.takeWhile (· != ' '))
    return (version, status)
  match read with
  | some r => .ok r
  | none => .error (.badStatusLine (String.ofList line.ofUtf8Lossy))

/-- The value after a colon: one blank in front of it does not count. -/
def dropBlank : Bytes → Bytes
  | 0x20 :: value => value
  | value => value

def readHeaderLine (line : Bytes) : Except WireFault (HeaderName × HeaderValue) :=
  let read : Option (HeaderName × HeaderValue) := do
    let name ← HeaderName.ofBytes? (line.takeWhile (· != 0x3a))
    match line.dropWhile (· != 0x3a) with
    | _ :: value => return (name, ← HeaderValue.ofBytes? (dropBlank value))
    | [] => none
  match read with
  | some r => .ok r
  | none => .error (.badHeader (String.ofList line.ofUtf8Lossy))

/-- The length that a `Content-Length` value declares, at most 2^64 - 1. -/
def declaredLength? (v : HeaderValue) : Option Nat := do
  Decimal.valueUpTo? 18446744073709551615 (Text.trim (← v.visible?))

/-- The body among the octets after the blank line. A response to `HEAD` and one of a bodiless
status have none; else it is as long as the first `Content-Length` declares, or all there is. -/
def frame (method : Method) (status : Status) (headers : Headers) (rest : Bytes) :
    Except WireFault Bytes :=
  if method = .head ∨ status.isBodiless then .ok []
  else
    match headers.first? .contentLength with
    | none => .ok rest
    | some v =>
      match declaredLength? v with
      | none =>
        .error (.badHeader ("content-length: " ++ String.ofList v.bytes.ofUtf8Lossy))
      | some n => if rest.length < n then .error (.shortBody n rest.length) else .ok (rest.take n)

/-- The header fields of some lines, on top of those in `h`. A line that finds no room crashes the
reader, whatever the lines behind it hold. -/
def readHeaders (h : Headers) : List Bytes → Except (Halt WireFault) Headers
  | [] => .ok h
  | line :: lines =>
    match readHeaderLine line with
    | .error fault => .error (.failed fault)
    | .ok (name, value) =>
      match h.append? name value with
      | some h => readHeaders h lines
      | none => .error .crashed

/-- The response of a wire form, as the answer to a request with the given method. -/
def decode (bytes : Bytes) (method : Method) : Except (Halt WireFault) Response :=
  if bytes.isEmpty then .error (.failed .noStatusLine)
  else
    match splitHead? bytes with
    | none => .error (.failed .endlessHeaders)
    | some (head, rest) =>
      match lines head with
      | [] => .error (.failed .noStatusLine)
      | first :: more => do
        let (version, status) ← (readStatusLine first).mapError .failed
        let headers ← readHeaders .empty more
        let body ← (frame method status headers rest).mapError .failed
        return ⟨version, status, headers, body⟩

end ResponseCache.Wire
