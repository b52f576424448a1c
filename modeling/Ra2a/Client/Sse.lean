import Ra2a.JsonRpc
import Ra2a.Lib.Delimited
import Ra2a.Lib.Utf8
import Ra2a.Types.Text
import Ra2a.Types.Wire

/-!
# Reading server-sent events

`parse_sse_stream` of `client/jsonrpc.rs` and `parse_rest_sse_stream` of
`client/rest.rs`.  Both fill a buffer from the chunks of a response and take the
blocks off its front that a blank line ends.  They differ in what they make of a
chunk that is not UTF-8 by itself, in what they take for the data of a block, and
in what they decode the data to: a JSON-RPC envelope, or the bare event.

A `str` is a list of characters here, and a `String` only where `serde_json`
reads it.  A chunk that the connection failed to deliver is its error.
-/

namespace Ra2a

open Delimited

/-! ### Strings -/

/-- `char::is_whitespace`. -/
def isWhitespace (c : Char) : Bool :=
  let n := c.toNat
  (0x09 ≤ n && n ≤ 0x0D) || n = 0x20 || n = 0x85 || n = 0xA0 || n = 0x1680 ||
    (0x2000 ≤ n && n ≤ 0x200A) || n = 0x2028 || n = 0x2029 || n = 0x202F || n = 0x205F || n = 0x3000

/-- `str::trim`. -/
def trim (s : List Char) : List Char :=
  ((s.dropWhile isWhitespace).reverse.dropWhile isWhitespace).reverse

/-- `str::strip_prefix`. -/
def stripPrefix (p s : List Char) : Option (List Char) :=
  if p.isPrefixOf s then some (s.drop p.length) else none

/-- `str::lines`: a line is ended by `\n` or by `\r\n`, and the last one need not be. -/
def lines : List Char → List (List Char)
  | [] => []
  | '\n' :: cs => [] :: lines cs
  | '\r' :: '\n' :: cs => [] :: lines cs
  | c :: cs =>
    match lines cs with
    | [] => [[c]]
    | l :: ls => (c :: l) :: ls

/-- What ends a block. -/
def blank : Delimiter Char := ⟨['\n', '\n'], by decide⟩

/-! ### The JSON-RPC client -/

/-- The item of an event stream. -/
abbrev Item := Except A2AError Event

/-- The data lines of a block, trimmed, as `parse_sse_message` joins them. -/
def sseData (message : List Char) : List Char :=
  (lines message).foldl (fun data line =>
    match stripPrefix "data:".toList line with
    | some rest => (if data.isEmpty then data else data ++ ['\n']) ++ trim rest
    | none => data) []

section JsonRpc

variable [Base64] [JsonText] [DecodeError (JsonRpcResponse Event)]

def parseSseMessage (message : List Char) : Option Item :=
  let data := sseData message
  if data.isEmpty then none
  else
    some (match (fromStr (String.ofList data) : Except String (JsonRpcResponse Event)) with
      | .ok (.success s) => .ok s.result
      | .ok (.error e) => .error (.jsonRpc e.error)
      | .error e => .error (.other s!"SSE parse error: {e}"))

/-- The event, if there is a complete one, and the buffer after it. -/
def tryExtractSseEvent (buf : List Char) : Option Item × List Char := next parseSseMessage blank buf

def sseReader : Reader Char Item :=
  ⟨tryExtractSseEvent, fun h => (next_some parseSseMessage h).1⟩

theorem sseReader_eq : sseReader = byBlocks parseSseMessage blank := rfl

/-- The items of a response, of the chunks it comes in.  A chunk that is not UTF-8 by
itself adds nothing to the buffer. -/
def parseSseStream (chunks : List (Except String (List UInt8))) : List Item :=
  stream Utf8.fromUtf8OrDrop (fun e => .error (.other e)) sseReader chunks []

end JsonRpc

/-! ### The REST client -/

def stripSseDataPrefix (line : List Char) : Option (List Char) :=
  (stripPrefix "data: ".toList line).or (stripPrefix "data:".toList line)

/-- The data lines of a block, as `try_extract_rest_event` joins them. -/
def restData (eventText : List Char) : List Char :=
  ['\n'].intercalate ((lines eventText).filterMap stripSseDataPrefix)

section Rest

variable [Base64] [JsonText] [DecodeError Event]

/-- What `try_extract_rest_event` makes of a block. -/
def parseRestMessage (eventText : List Char) : Option Item :=
  let data := restData eventText
  if data.isEmpty then none else some ((fromStr (String.ofList data)).mapError .other)

def tryExtractRestEvent (buf : List Char) : Option Item × List Char :=
  next parseRestMessage blank buf

def restReader : Reader Char Item :=
  ⟨tryExtractRestEvent, fun h => (next_some parseRestMessage h).1⟩

theorem restReader_eq : restReader = byBlocks parseRestMessage blank := rfl

/-- The items of a response, of the chunks it comes in. -/
def parseRestSseStream (chunks : List (Except String (List UInt8))) : List Item :=
  stream Utf8.fromUtf8Lossy (fun e => .error (.other s!"SSE stream error: {e}")) restReader
    chunks []

end Rest

end Ra2a
