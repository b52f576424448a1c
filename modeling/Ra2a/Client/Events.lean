import Ra2a.Client.Sse
import Ra2a.Server.Sse

/-!
# Events read back

What the servers write on an event stream, the clients read off it item by item,
with nothing left over (`frames_extracted`): a block of data is one line, so it is
cut off whole, and a comment has no data.

What is nested deeper than the parser of `serde_json` goes is printed by the
server, but the client makes an error of it (`deepEvent_refused`).
-/

namespace Ra2a

open Delimited SortedMap

variable {data : List Char}

/-! ### Blocks of one line -/

theorem lines_of_not_mem {line : List Char} (hne : line ≠ []) (h : '\n' ∉ line) :
    lines line = [line] := by
  induction line with
  | nil => exact absurd rfl hne
  | cons c cs ih =>
    have hc : c ≠ '\n' := fun hc => h (hc ▸ List.mem_cons_self)
    have hcs : '\n' ∉ cs := fun hcs => h (List.mem_cons_of_mem c hcs)
    rw [lines.eq_4 c cs hc fun cs' _ heq => hcs (heq ▸ List.mem_cons_self)]
    cases cs with
    | nil => rfl
    | cons d ds => rw [ih (by simp) hcs]

/-- Blocks of one line each are cut off one by one. -/
theorem blocks_flatMap {α : Type} (as : List α) (f : α → List Char)
    (h : ∀ a ∈ as, '\n' ∉ f a) :
    blocks blank (as.flatMap fun a => f a ++ blank.text) = (as.map f, []) := by
  induction as with
  | nil => rw [List.flatMap_nil, blocks_of_none rfl, List.map_nil]
  | cons a as ih =>
    rw [List.flatMap_cons,
      blocks_of_some (cut_block rfl (h a List.mem_cons_self) _),
      ih fun a' ha' => h a' (List.mem_cons_of_mem a ha')]
    rfl

/-- The line of a frame. -/
def Frame.line {α : Type} (data : α → List Char) : Frame α → List Char
  | item a => "data: ".toList ++ data a
  | keepAlive comment => ':' :: comment

/-- A frame whose data or comment has no newline in it. -/
def Frame.OneLine {α : Type} (data : α → List Char) : Frame α → Prop
  | item a => '\n' ∉ data a
  | keepAlive comment => '\n' ∉ comment

theorem Frame.text_eq {α : Type} {data : α → List Char} {f : Frame α} (h : f.OneLine data) :
    f.text data = f.line data ++ blank.text := by
  cases f with
  | item a => exact dataBlock_of_not_mem h
  | keepAlive comment => rfl

theorem not_mem_dataLine (h : '\n' ∉ data) : '\n' ∉ "data: ".toList ++ data := by
  intro hmem
  rcases List.mem_append.mp hmem with hmem | hmem
  · revert hmem
    decide
  · exact h hmem

theorem not_mem_comment {comment : List Char} (h : '\n' ∉ comment) : '\n' ∉ ':' :: comment := by
  simpa using h

theorem Frame.not_mem_line {α : Type} {data : α → List Char} {f : Frame α} (h : f.OneLine data) :
    '\n' ∉ f.line data := by
  cases f with
  | item a => exact not_mem_dataLine h
  | keepAlive comment => exact not_mem_comment h

/-- **Frames come off one by one**, each as what its line says. -/
theorem drain_frames {α β : Type} {data : α → List Char} (parse : List Char → Option β)
    {fs : List (Frame α)} (h : ∀ f ∈ fs, f.OneLine data) :
    drain (byBlocks parse blank) (fs.flatMap (Frame.text data)) =
      (fs.filterMap fun f => parse (f.line data), []) := by
  have htext : fs.flatMap (Frame.text data) = fs.flatMap fun f => f.line data ++ blank.text :=
    List.flatMap_congr fun f hf => Frame.text_eq (h f hf)
  rw [drain_eq, htext, blocks_flatMap _ _ fun f hf => Frame.not_mem_line (h f hf),
    List.filterMap_map]
  rfl

/-! ### What a line says -/

/-- Data that keep their place when they are trimmed. -/
structure Tight (data : List Char) : Prop where
  oneLine : '\n' ∉ data
  head : data.head? = some '\x7b'
  last : data.getLast? = some '\x7d'

theorem Tight.ne_nil (h : Tight data) : data.isEmpty = false := by
  obtain ⟨cs, rfl⟩ := List.head?_eq_some_iff.mp h.head
  rfl

theorem trim_cons_space (h : Tight data) : trim (' ' :: data) = data := by
  obtain ⟨cs, rfl⟩ := List.head?_eq_some_iff.mp h.head
  have hlast := h.last
  rw [← List.head?_reverse] at hlast
  obtain ⟨ds, hds⟩ := List.head?_eq_some_iff.mp hlast
  have hspace : isWhitespace ' ' = true := by decide
  have hopen : isWhitespace '\x7b' = false := by decide
  have hclose : isWhitespace '\x7d' = false := by decide
  rw [trim, List.dropWhile_cons_of_pos hspace, List.dropWhile_cons_of_neg (by simp [hopen]), hds,
    List.dropWhile_cons_of_neg (by simp [hclose]), ← hds, List.reverse_reverse]

theorem sseData_line (h : Tight data) : sseData ("data: ".toList ++ data) = data := by
  rw [sseData, lines_of_not_mem (by simp) (not_mem_dataLine h.oneLine)]
  have hstrip : stripPrefix "data:".toList ("data: ".toList ++ data) = some (' ' :: data) := by
    simp [stripPrefix]
  simp only [List.foldl_cons, List.foldl_nil, hstrip, List.isEmpty_nil, if_true,
    trim_cons_space h, List.nil_append]

theorem sseData_comment {comment : List Char} (h : '\n' ∉ comment) :
    sseData (':' :: comment) = [] := by
  have hstrip : stripPrefix "data:".toList (':' :: comment) = none := by
    simp [stripPrefix]
  rw [sseData, lines_of_not_mem (by simp) (not_mem_comment h)]
  simp only [List.foldl_cons, List.foldl_nil, hstrip]

theorem restData_line (h : '\n' ∉ data) : restData ("data: ".toList ++ data) = data := by
  have hstrip : stripSseDataPrefix ("data: ".toList ++ data) = some data := by
    simp [stripSseDataPrefix, stripPrefix]
  rw [restData, lines_of_not_mem (by simp) (not_mem_dataLine h), List.filterMap_cons, hstrip]
  simp [List.intercalate]

theorem restData_comment {comment : List Char} (h : '\n' ∉ comment) :
    restData (':' :: comment) = [] := by
  have hstrip : stripSseDataPrefix (':' :: comment) = none := by
    simp [stripSseDataPrefix, stripPrefix]
  rw [restData, lines_of_not_mem (by simp) (not_mem_comment h), List.filterMap_cons, hstrip]
  rfl

/-! ### What the clients receive -/

def Frame.item? {α : Type} : Frame α → Option α
  | item a => some a
  | keepAlive _ => none

/-- A frame as it comes from the server: a value with its text, or a comment. -/
def Frame.Legible {α : Type} [JsonText] (json : α → Json) : Frame α → Prop
  | item a => JsonText.Legible (json a)
  | keepAlive comment => '\n' ∉ comment

section Received

variable [JsonText]

/-- The text of a value that is legible. -/
theorem exists_text {j : Json} (h : JsonText.Legible j) :
    ∃ s, JsonText.print j = some s ∧ Tight s.toList ∧
      JsonText.parse s = if j.depth ≤ recursionLimit then some j else none := by
  obtain ⟨s, hprint, hparse⟩ := h.readable
  obtain ⟨hline, hhead, hlast⟩ := h.braces s hprint
  exact ⟨s, hprint, ⟨hline, hhead, hlast⟩, hparse⟩

theorem not_mem_getD_print {j : Json} (h : JsonText.Legible j) :
    '\n' ∉ ((JsonText.print j).getD "").toList := by
  obtain ⟨s, hprint, htight, -⟩ := exists_text h
  rw [hprint]
  exact htight.oneLine

/-- Legible frames, whose items are written as lines that are parsed as `r`. -/
theorem drain_legible {α β : Type} {json : α → Json} {data : α → List Char} {r : α → β}
    {parse : List Char → Option β} {fs : List (Frame α)} (hfs : ∀ f ∈ fs, f.Legible json)
    (hline : ∀ a, JsonText.Legible (json a) → '\n' ∉ data a)
    (hitem : ∀ a, JsonText.Legible (json a) → parse ("data: ".toList ++ data a) = some (r a))
    (hcomment : ∀ c, '\n' ∉ c → parse (':' :: c) = none) :
    drain (byBlocks parse blank) (fs.flatMap (Frame.text data)) =
      ((fs.filterMap Frame.item?).map r, []) := by
  have honeLine : ∀ f ∈ fs, f.OneLine data := by
    intro f hf
    have hlegible := hfs f hf
    cases f with
    | item a => exact hline a hlegible
    | keepAlive c => exact hlegible
  rw [drain_frames parse honeLine, List.map_filterMap]
  refine congrArg (·, []) (List.filterMap_congr fun f hf => ?_)
  have hlegible := hfs f hf
  cases f with
  | item a => exact hitem a hlegible
  | keepAlive c => exact hcomment c hlegible

variable [Base64] {id : RequestId}

section JsonRpc

variable [DecodeError (JsonRpcResponse Event)]

/-- `try_extract_sse_event`, called until it finds no event. -/
def extractSseEvents (buf : List Char) : List Item × List Char := drain sseReader buf

/-- What the JSON-RPC client makes of an item. -/
def received (id : RequestId) : Item → Item
  | .ok event =>
    if (sseEnvelope id (.ok event)).depth ≤ recursionLimit then .ok event
    else
      let text := String.ofList (sseItemData id (.ok event))
      .error (.other s!"SSE parse error: {DecodeError.message (JsonRpcResponse Event) text}")
  | .error e => .error (.jsonRpc e.toJsonrpcError)

/-- The client reads an item that was sent. -/
theorem parseSseMessage_item [LawfulBase64] {item : Item}
    (h : JsonText.Legible (sseEnvelope id item)) :
    parseSseMessage ("data: ".toList ++ sseItemData id item) = some (received id item) := by
  obtain ⟨s, hprint, htight, hparse⟩ := exists_text h
  have hdata : sseItemData id item = s.toList := by
    rw [sseItemData, hprint]
    rfl
  rw [parseSseMessage, hdata, sseData_line htight, htight.ne_nil, String.ofList_toList, fromStr,
    fromText, hparse]
  cases item with
  | ok event =>
    by_cases hdepth : (sseEnvelope id (.ok event)).depth ≤ recursionLimit
    · have hjson : deserialize (sseEnvelope id (.ok event)) =
          some (JsonRpcResponse.success ⟨"2.0", some id, event⟩) := by
        rw [sseEnvelope_ok]
        exact ofJson_success rfl rfl rfl
      rw [if_pos hdepth, Option.bind_some, hjson, received, if_pos hdepth]
      rfl
    · rw [if_neg hdepth, received, if_neg hdepth, hdata, String.ofList_toList]
      rfl
  | error e =>
    have hdepth : (sseEnvelope id (.error e)).depth ≤ recursionLimit := by
      rw [depth_errorEnvelope]
      decide
    have hjson : deserialize (sseEnvelope id (.error e)) =
        some (JsonRpcResponse.error (R := Event) ⟨"2.0", some id, e.toJsonrpcError⟩) := by
      rw [sseEnvelope_error]
      exact ofJson_error rfl rfl rfl rfl
        (JsonRpcError.ofJson_toJson e.toJsonrpcError (Option.some_ne_none _).symm)
    rw [if_pos hdepth, Option.bind_some, hjson]
    rfl

theorem parseSseMessage_comment {c : List Char} (h : '\n' ∉ c) :
    parseSseMessage (':' :: c) = none := by
  rw [parseSseMessage, sseData_comment h]
  rfl

theorem sseFrames_extracted [LawfulBase64] {fs : List (Frame Item)}
    (hfs : ∀ f ∈ fs, f.Legible (sseEnvelope id)) :
    extractSseEvents (fs.flatMap (Frame.text (sseItemData id))) =
      ((fs.filterMap Frame.item?).map (received id), []) :=
  drain_legible hfs (fun _ h => not_mem_getD_print h) (fun _ h => parseSseMessage_item h)
    fun _ h => parseSseMessage_comment h

end JsonRpc

section Rest

variable [DecodeError Event]

/-- `try_extract_rest_event`, called until it finds no event. -/
def extractRestEvents (buf : List Char) : List Item × List Char := drain restReader buf

/-- What the REST client makes of an event. -/
def restReceived (event : Event) : Item :=
  if (serialize event).depth ≤ recursionLimit then .ok event
  else .error (.other (DecodeError.message Event (String.ofList (restEventData event))))

theorem parseRestMessage_item [LawfulBase64] {event : Event}
    (h : JsonText.Legible (serialize event)) :
    parseRestMessage ("data: ".toList ++ restEventData event) = some (restReceived event) := by
  obtain ⟨s, hprint, htight, hparse⟩ := exists_text h
  have hdata : restEventData event = s.toList := by
    rw [restEventData, toText, hprint]
    rfl
  rw [parseRestMessage, restReceived, hdata, restData_line htight.oneLine, htight.ne_nil,
    String.ofList_toList, fromStr, fromText, hparse]
  by_cases hdepth : (serialize event).depth ≤ recursionLimit
  · rw [if_pos hdepth, if_pos hdepth, Option.bind_some, LawfulSerde.deserialize_serialize]
    rfl
  · rw [if_neg hdepth, if_neg hdepth]
    rfl

theorem parseRestMessage_comment {c : List Char} (h : '\n' ∉ c) :
    parseRestMessage (':' :: c) = none := by
  rw [parseRestMessage, restData_comment h]
  rfl

theorem restFrames_extracted [LawfulBase64] {fs : List (Frame Event)}
    (hfs : ∀ f ∈ fs, f.Legible serialize) :
    extractRestEvents (fs.flatMap (Frame.text restEventData)) =
      ((fs.filterMap Frame.item?).map restReceived, []) :=
  drain_legible hfs (fun _ h => not_mem_getD_print h) (fun _ h => parseRestMessage_item h)
    fun _ h => parseRestMessage_comment h

end Rest

/-- **Every item sent is received, in order, with nothing left over.** -/
theorem frames_extracted [LawfulBase64] [DecodeError (JsonRpcResponse Event)]
    [DecodeError Event] {fs : List (Frame Item)} {gs : List (Frame Event)}
    (hfs : ∀ f ∈ fs, f.Legible (sseEnvelope id)) (hgs : ∀ g ∈ gs, g.Legible serialize) :
    extractSseEvents (fs.flatMap (Frame.text (sseItemData id))) =
        ((fs.filterMap Frame.item?).map (received id), []) ∧
      extractRestEvents (gs.flatMap (Frame.text restEventData)) =
        ((gs.filterMap Frame.item?).map restReceived, []) :=
  ⟨sseFrames_extracted hfs, restFrames_extracted hgs⟩

end Received

/-! ### Nested data -/

/-- A message of one part. -/
def partEvent (content : PartContent) : Event :=
  .message (.agent "m1" [⟨content, none, none, none⟩])

theorem serialize_partEvent [Base64] (content : PartContent) : serialize (partEvent content) =
    .object [("message", .object [("messageId", .string "m1"),
      ("parts", .array [.object (ofEntries content.field)]), ("role", .string "ROLE_AGENT")])] := by
  have h₁ : ("messageId" : String) < "parts" := by decide
  have h₂ : ("messageId" : String) < "role" := by decide
  have h₃ : ("parts" : String) < "role" := by decide
  have hpart : Part.serialize ⟨content, none, none, none⟩ = .object (ofEntries content.field) := by
    simp [Part.serialize, Json.ofFields, fieldUnlessNone]
  simp only [partEvent, Message.agent, Message.new, serialize, Event.serialize, Json.ofFields,
    Message.serialize, field, fieldUnlessNone, fieldUnlessEmpty, List.isEmpty_nil, if_true,
    List.append_nil, List.cons_append, List.nil_append, ofEntries, List.foldl_cons, List.foldl_nil,
    put_nil, put_cons_of_gt h₂, put_cons_of_gt h₁, put_cons_of_lt h₃]
  simp only [List.map_cons, List.map_nil, hpart]
  rfl

/-- A message with data nested `n` deep. -/
def nestedEvent (n : ℕ) : Event := partEvent (.data (nested n))

theorem serialize_nestedEvent [Base64] (n : ℕ) : serialize (nestedEvent n) =
    .object [("message", .object [("messageId", .string "m1"),
      ("parts", .array [.object [("data", nested n)]]), ("role", .string "ROLE_AGENT")])] :=
  serialize_partEvent (.data (nested n))

/-- The values that are sent below, each with the text `serde_json` prints of it. -/
def sentTexts [Base64] (n : ℕ) : List (Json × String) :=
  [(sseEnvelope (.string "1") (.ok (nestedEvent n)),
      braced ("\"id\":\"1\",\"jsonrpc\":\"2.0\",\"result\":\x7b\"message\":\x7b\"messageId\":\"m1\"," ++
        "\"parts\":[\x7b\"data\":" ++ nestedText n ++ "\x7d],\"role\":\"ROLE_AGENT\"\x7d\x7d")),
    (sseEnvelope (.string "1") (.error (.taskNotFound "t1")),
      braced ("\"error\":\x7b\"code\":-32001,\"message\":\"task not found: t1\"\x7d," ++
        "\"id\":\"1\",\"jsonrpc\":\"2.0\"")),
    (serialize (nestedEvent n),
      braced ("\"message\":\x7b\"messageId\":\"m1\",\"role\":\"ROLE_AGENT\"," ++
        "\"parts\":[\x7b\"data\":" ++ nestedText n ++ "\x7d]\x7d"))]

theorem legible_sentTexts [Base64] (n : ℕ) {e : Json × String} (he : e ∈ sentTexts n) :
    @JsonText.Legible (tableText (sentTexts n)) e.1 := by
  refine legible_tableText ?_ ?_ ?_ he
  · rw [sentTexts, sseEnvelope_ok, sseEnvelope_error, serialize_nestedEvent]
    simp
  · have hne : ∀ s t : String, s.toList.take 3 ≠ t.toList.take 3 → s ≠ t :=
      fun s t h heq => h (heq ▸ rfl)
    have hthree : ∀ a b c : String, a ≠ b → a ≠ c → b ≠ c → [a, b, c].Nodup := by
      intro a b c hab hac hbc
      simp [hab, hac, hbc]
    refine hthree _ _ _ (hne _ _ ?_) (hne _ _ ?_) (hne _ _ ?_) <;> simp [braced]
  · simp only [sentTexts, List.forall_mem_cons]
    refine ⟨braces_braced ?_, braces_braced ?_, braces_braced ?_, by simp⟩ <;>
      simp [nestedText, List.mem_replicate]

theorem depth_nestedEvent [Base64] (n : ℕ) : (serialize (nestedEvent n)).depth = n + 4 := by
  rw [serialize_nestedEvent]
  simp only [Json.depth, Json.depthFields, Json.depthList, depth_nested]
  omega

theorem depth_nestedEnvelope [Base64] (n : ℕ) :
    (sseEnvelope (.string "1") (.ok (nestedEvent n))).depth = n + 5 := by
  rw [depth_sseEnvelope, depth_nestedEvent]

/-- The error of a parser that has gone too deep. -/
@[reducible] def tooDeep (α : Type) : DecodeError α :=
  ⟨fun _ => "recursion limit exceeded at line 1 column 204"⟩

theorem frames_extracted_nested :
    letI := byteChars
    letI := tableText (sentTexts 1)
    letI := tooDeep (JsonRpcResponse Event)
    letI := tooDeep Event
    extractSseEvents (([.keepAlive [], .item (.ok (nestedEvent 1)), .keepAlive [],
          .item (.error (.taskNotFound "t1"))] : List (Frame Item)).flatMap
        (Frame.text (sseItemData (.string "1")))) =
      ([.ok (nestedEvent 1), .error (.jsonRpc ⟨-32001, "task not found: t1", none⟩)], []) ∧
    extractRestEvents (([.item (nestedEvent 1), .keepAlive []] : List (Frame Event)).flatMap
        (Frame.text restEventData)) =
      ([.ok (nestedEvent 1)], []) := by
  let := byteChars
  let := tableText (sentTexts 1)
  let := tooDeep (JsonRpcResponse Event)
  let := tooDeep Event
  have := lawful_byteChars
  have hevent : JsonText.Legible (sseEnvelope (.string "1") (.ok (nestedEvent 1))) :=
    legible_sentTexts 1 (List.mem_cons_self)
  have herror : JsonText.Legible (sseEnvelope (.string "1") (.error (.taskNotFound "t1"))) :=
    legible_sentTexts 1 (List.mem_cons_of_mem _ List.mem_cons_self)
  have hbare : JsonText.Legible (serialize (nestedEvent 1)) :=
    legible_sentTexts 1 (List.mem_cons_of_mem _ (List.mem_cons_of_mem _ List.mem_cons_self))
  have hnil : '\n' ∉ ([] : List Char) := List.not_mem_nil
  have hfs : ∀ f ∈ ([.keepAlive [], .item (.ok (nestedEvent 1)), .keepAlive [],
      .item (.error (.taskNotFound "t1"))] : List (Frame Item)),
      f.Legible (sseEnvelope (.string "1")) := by
    simp [Frame.Legible, hevent, herror]
  have hgs : ∀ g ∈ ([.item (nestedEvent 1), .keepAlive []] : List (Frame Event)),
      g.Legible serialize := by
    simp [Frame.Legible, hbare]
  have h := frames_extracted hfs hgs
  have hreceived : received (.string "1") (.ok (nestedEvent 1)) = .ok (nestedEvent 1) := by
    rw [received, depth_nestedEnvelope, if_pos (by decide)]
  have hrest : restReceived (nestedEvent 1) = .ok (nestedEvent 1) := by
    rw [restReceived, depth_nestedEvent, if_pos (by decide)]
  simp only [List.filterMap_cons, List.filterMap_nil, Frame.item?, List.map_cons, List.map_nil,
    hreceived, hrest] at h
  exact h

/-- An event nested a level too deep is sent, and an error is received. -/
theorem deepEvent_refused :
    letI := byteChars
    letI := tableText (sentTexts 123)
    letI := tooDeep (JsonRpcResponse Event)
    JsonText.Legible (sseEnvelope (.string "1") (.ok (nestedEvent 123))) ∧
      extractSseEvents (Frame.text (sseItemData (.string "1")) (.item (.ok (nestedEvent 123)))) ≠
        ([.ok (nestedEvent 123)], []) := by
  let := byteChars
  let := tableText (sentTexts 123)
  let := tooDeep (JsonRpcResponse Event)
  have := lawful_byteChars
  have hevent : JsonText.Legible (sseEnvelope (.string "1") (.ok (nestedEvent 123))) :=
    legible_sentTexts 123 (List.mem_cons_self)
  refine ⟨hevent, fun h => ?_⟩
  have hfs : ∀ f ∈ ([.item (.ok (nestedEvent 123))] : List (Frame Item)),
      f.Legible (sseEnvelope (.string "1")) := by
    simp [Frame.Legible, hevent]
  have hread := sseFrames_extracted hfs
  have hreceived : received (.string "1") (.ok (nestedEvent 123)) ≠ .ok (nestedEvent 123) := by
    rw [received, depth_nestedEnvelope, if_neg (by decide)]
    nofun
  rw [List.flatMap_singleton, h] at hread
  simp only [List.filterMap_cons, List.filterMap_nil, Frame.item?, List.map_cons, List.map_nil,
    Prod.mk.injEq, List.cons.injEq, and_true] at hread
  exact hreceived hread.symm

end Ra2a
