import CodeHarbor.Lib.JsonCut
set_option autoImplicit false

namespace CodeHarbor.Gateway.EventFile
open Lib.Js

/-! The event file of a session, byte by byte: what a reader makes of it, whatever it holds, and
what becomes of an event that is appended. -/

/-- `text.split(/\r?\n/)`. -/
def splitLines : JsText → List JsText
  | [] => [[]]
  | u :: rest =>
    if u = 0x0a then [] :: splitLines rest
    else if u = 0x0d ∧ rest.head? = some 0x0a then splitLines rest
    else
      match splitLines rest with
      | [] => [[u]]
      | line :: lines => (u :: line) :: lines

def parsedLines (lines : List JsText) : List Value :=
  ((lines.map trim).filter fun line => line ≠ []).filterMap Json.parse

def parsed (file : Bytes) : List Value := parsedLines (splitLines (decodeUtf8 file))

/-- `entry.message?.sessionId === sessionId`, none when it throws. -/
def belongs (sessionId : JsText) (entry : Value) : Option Bool :=
  (entry.read "message").map fun message => (message.get "sessionId").strictEq (.str sessionId)

/-- `entries.filter(…)`, none when one of the tests throws. -/
def filterEntries (sessionId : JsText) : List Value → Option (List Value)
  | [] => some []
  | entry :: rest => do
    let kept ← belongs sessionId entry
    let others ← filterEntries sessionId rest
    some (if kept then entry :: others else others)

def members : Value → Json.Members
  | .obj members => members
  | _ => []

/-- `{ message: { ...message, eventSeq } }`. -/
def numbered (eventSeq : Rat) (message : Value) : Value :=
  .obj [(ofString "message",.obj (Json.setMember (ofString "eventSeq") (.num eventSeq) (members message)))]

/-- The number of a message behind one with the number `fallbackSeq`. -/
def eventSeqAfter (fallbackSeq : Rat) (message : Value) : Rat :=
  match message.get "eventSeq" with
  | .num explicitSeq => if fallbackSeq < explicitSeq then explicitSeq else addOne fallbackSeq
  | _ => addOne fallbackSeq

def eventSeqs : Rat → List Value → List Rat
  | _, [] => []
  | fallbackSeq, message :: rest =>
    let eventSeq := eventSeqAfter fallbackSeq message
    eventSeq :: eventSeqs eventSeq rest

def numberEntries (entries : List Value) : List Value :=
  let messages := entries.map fun entry => entry.get "message"
  List.zipWith numbered (eventSeqs 0 messages) messages

/-- `readEventsFromDisk`; without a file there are no events. -/
def readEventsFromDisk (sessionId : JsText) (file : Option Bytes) : List Value :=
  match file with
  | none => []
  | some bytes => ((filterEntries sessionId (parsed bytes)).map numberEntries).getD []

structure Event (sessionId : JsText) where
  message : Value
  eventSeq : Rat
  value : Json.IsValue message
  session : message.get "sessionId" = .str sessionId
  double : IsDouble eventSeq
  positive : 0 < eventSeq

namespace Event

variable {sessionId : JsText}

/-- The line that `queueEventWrite` is given, and the bytes that `appendFile` adds for it. -/
def line (e : Event sessionId) : JsText := Json.stringify 0 (numbered e.eventSeq e.message) ++ [0x0a]

def bytes (e : Event sessionId) : Bytes := encodeUtf8 e.line

/-- The message as JSON carries it. -/
def written (e : Event sessionId) : Value := (Json.carried (numbered e.eventSeq e.message)).get "message"

end Event

def messagesOf (sessionId : JsText) (entries : List Value) : List Value :=
  (entries.map fun entry => entry.get "message").filter fun message =>
    (message.get "sessionId").strictEq (.str sessionId)

/-- The events are the messages in their order under strictly increasing numbers, and a number
larger than the one before stays. -/
structure Recovered (messages events : List Value) (seqs : List Rat) : Prop where
  events : events = List.zipWith numbered seqs messages
  whole : seqs.length = messages.length
  increasing : seqs.Pairwise (· < ·)
  explicit : ∀ (i : Nat) before seq (message : Value), (0 :: seqs)[i]? = some before → seqs[i]? = some seq →
    messages[i]? = some message → ∀ explicitSeq, message.get "eventSeq" = .num explicitSeq →
      before < explicitSeq → seq = explicitSeq

/-- An event is read behind the messages that were in the file, under its own number if theirs
are smaller. -/
structure Returned {sessionId : JsText} (file : Bytes) (e : Event sessionId) (seqs : List Rat) (last : Rat) :
    Prop where
  whole : seqs.length = (messagesOf sessionId (parsed file)).length
  read : readEventsFromDisk sessionId (some (file ++ e.bytes)) =
    List.zipWith numbered seqs (messagesOf sessionId (parsed file)) ++ [numbered last e.written]
  number : (∀ seq ∈ seqs, seq < e.eventSeq) → last = e.eventSeq

/-- What stands behind the last line break. -/
def tornLine (file : Bytes) : JsText := ((splitLines (decodeUtf8 file)).getLast?).getD []

/-- Wherever a message has no number of its own that is larger than the one before, one can be
added to the one before. -/
def Countable : Rat → List Value → Prop
  | _, [] => True
  | before, message :: rest =>
    match message.get "eventSeq" with
    | .num explicitSeq =>
      if before < explicitSeq then Countable explicitSeq rest
      else before < addOne before ∧ Countable (addOne before) rest
    | _ => before < addOne before ∧ Countable (addOne before) rest

section Lines

theorem splitLines_append (front : JsText) {line : JsText} (solid : line ≠ []) (printed : ∀ u ∈ line, 0x20 ≤ u.toNat) :
    ∃ whole torn, splitLines front = whole ++ [torn] ∧
      splitLines (front ++ (line ++ [0x0a])) = whole ++ [torn ++ line,[]] := by
  have unbroken : ∀ u ∈ line, u ≠ 0x0a ∧ u ≠ 0x0d := by
    intro u mem
    have := printed u mem
    constructor <;> (rintro rfl; revert this; decide)
  induction front with
  | nil =>
    refine ⟨[],[],rfl,?_⟩
    rw [List.nil_append,List.nil_append]
    clear printed solid
    induction line with
    | nil => rfl
    | cons u line ih =>
      have apart := unbroken u (by simp)
      rw [List.cons_append,splitLines,if_neg apart.1,if_neg fun h => apart.2 h.1,
        ih fun v mem => unbroken v (by simp [mem])]
      rfl
  | cons u front ih =>
    obtain ⟨whole,torn,before,behind⟩ := ih
    rw [List.cons_append,splitLines,splitLines]
    have head : (front ++ (line ++ [0x0a])).head? = some 0x0a ↔ front.head? = some 0x0a := by
      cases front with
      | nil =>
        obtain ⟨v,line,rfl⟩ := List.exists_cons_of_ne_nil solid
        simpa using (unbroken v (by simp)).1
      | cons v front => rfl
    simp only [head,before,behind]
    split_ifs
    · exact ⟨[] :: whole,torn,rfl,rfl⟩
    · exact ⟨whole,torn,rfl,rfl⟩
    · cases whole with
      | nil => exact ⟨[],u :: torn,rfl,rfl⟩
      | cons first whole => exact ⟨(u :: first) :: whole,torn,rfl,rfl⟩

theorem parsedLines_append (xs ys : List JsText) : parsedLines (xs ++ ys) = parsedLines xs ++ parsedLines ys := by
  simp [parsedLines]

theorem parsedLines_blank {line : JsText} (h : trim line = []) : parsedLines [line] = [] := by
  simp [parsedLines,h]

theorem parsedLines_one {line : JsText} {v : Option Value} (h : Json.parse (trim line) = v) (solid : trim line ≠ []) :
    parsedLines [line] = v.toList := by
  cases v <;> simp [parsedLines,solid,h]

end Lines

namespace Event

variable {sessionId : JsText} (e : Event sessionId)

theorem index_eventSeq : Json.index? (ofString "eventSeq") = none := by decide

theorem message_eq : ∃ ms, e.message = .obj ms := by
  have session := e.session
  cases message : e.message with
  | obj ms => exact ⟨ms,rfl⟩
  | _ => rw [message] at session; cases session

theorem isValue_numbered : Json.IsValue (numbered e.eventSeq e.message) := by
  obtain ⟨ms,message⟩ := e.message_eq
  have value := e.value
  rw [message] at value
  cases value with
  | obj _ ordered values =>
    refine .obj _ (List.pairwise_singleton ..) fun m mem => ?_
    rw [List.mem_singleton.1 mem]
    refine .obj _ ?_ fun n listed => ?_
    · rw [message]
      exact Json.setMember_pairwise index_eventSeq ordered
    · rw [message] at listed
      rcases Json.mem_setMember listed with rfl | listed
      · exact .num _ e.double
      · exact values n listed

def entry : JsText := Json.stringify 0 (numbered e.eventSeq e.message)

theorem reads_entry : Json.Reads e.entry (Json.carried (numbered e.eventSeq e.message)) :=
  Json.reads_text (Json.isJson_carried e.isValue_numbered) 0 0

theorem entry_eq : ∃ inner, e.entry = 0x7b :: (0x22 :: 0x6d :: inner) ++ [0x7d] := by
  have key : Json.quote (ofString "message") = 0x22 :: 0x6d :: ofString "essage\"" := by decide
  refine ⟨ofString "essage\":" ++ Json.text 0 1 (Json.carried (.obj
    (Json.setMember (ofString "eventSeq") (.num e.eventSeq) (members e.message)))),?_⟩
  simp only [entry,Json.stringify,numbered,Json.carried,Json.carriedMembers,Json.text,Json.memberTexts,Json.bracket,
    Json.memberText,key,Json.newline]
  simp [ofString]

theorem printed_entry : ∀ u ∈ e.entry, 0x20 ≤ u.toNat :=
  Json.printed_kept.text (Json.isJson_carried e.isValue_numbered) 0

theorem wellFormed_line : WellFormed e.line :=
  (Json.wellFormed_stringify e.isValue_numbered 0).append (.of_small (by decide))

theorem decodeUtf8_bytes (file : Bytes) : decodeUtf8 (file ++ e.bytes) = decodeUtf8 file ++ e.line := by
  obtain ⟨inner,entry⟩ := e.entry_eq
  have whole := decodeUtf8_encodeUtf8_append e.wellFormed_line []
  rw [List.append_nil,show decodeUtf8 [] = [] from rfl,List.append_nil] at whole
  obtain ⟨rest,bytes⟩ : ∃ rest, e.bytes = 0x7b :: rest := by
    refine ⟨encodeUtf8 (0x22 :: 0x6d :: inner ++ [0x7d] ++ [0x0a]),?_⟩
    rw [bytes,line,show Json.stringify 0 (numbered e.eventSeq e.message) = e.entry from rfl,entry]
    exact encodeUtf8_cons (by decide) _
  rw [bytes,decodeUtf8_append file rest (by decide),← bytes]
  exact congrArg _ whole

theorem message_written : e.written.get "eventSeq" = .num e.eventSeq ∧
    e.written.get "sessionId" = .str sessionId ∧
      Json.carried (numbered e.eventSeq e.message) = .obj [(ofString "message",e.written)] := by
  obtain ⟨ms,message⟩ := e.message_eq
  have value := e.value
  have session := e.session
  rw [message] at value session
  cases value with
  | obj _ ordered values =>
    have written : e.written = .obj (Json.carriedMembers
        (Json.setMember (ofString "eventSeq") (.num e.eventSeq) ms)) := by
      rw [Event.written,message]
      rfl
    have apart := (Json.setMember_pairwise (v := .num e.eventSeq) index_eventSeq ordered).imp
      fun h => h.1
    refine ⟨?_,?_,?_⟩
    · rw [written,Value.get,Json.lookup_carriedMembers apart (v := .num e.eventSeq) ?_ rfl]
      · rfl
      · rw [Json.lookup_setMember,if_pos rfl]
    · have listed : ms.lookup (ofString "sessionId") = some (.str sessionId) := by
        simp only [Value.get] at session
        cases found : ms.lookup (ofString "sessionId") with
        | none => rw [found] at session; cases session
        | some v => rw [found] at session; exact congrArg some session
      rw [written,Value.get,Json.lookup_carriedMembers apart (v := .str sessionId) ?_ rfl]
      · rfl
      · rw [Json.lookup_setMember,if_neg (by decide)]
        exact listed
    · rw [written,message]
      rfl

end Event

section Numbers

def Readable (entries : List Value) : Prop := ∀ entry ∈ entries, entry ≠ .null ∧ entry ≠ .undefined

theorem belongs_eq {sessionId : JsText} {entry : Value} (h : entry ≠ .null ∧ entry ≠ .undefined) :
    belongs sessionId entry = some (((entry.get "message").get "sessionId").strictEq (.str sessionId)) := by
  cases entry with
  | undefined => exact absurd rfl h.2
  | null => exact absurd rfl h.1
  | _ => rfl

theorem filterEntries_of_readable {sessionId : JsText} {entries : List Value} (h : Readable entries) :
    filterEntries sessionId entries = some (entries.filter fun entry =>
      ((entry.get "message").get "sessionId").strictEq (.str sessionId)) := by
  induction entries with
  | nil => rfl
  | cons entry rest ih =>
    rw [filterEntries,belongs_eq (h entry (by simp)),ih fun e mem => h e (by simp [mem]),List.filter_cons]
    rfl

theorem filterEntries_of_null {sessionId : JsText} {entries : List Value} (h : .null ∈ entries) :
    filterEntries sessionId entries = none := by
  induction entries with
  | nil => cases h
  | cons entry rest ih =>
    rcases List.mem_cons.1 h with rfl | mem
    · rfl
    · rw [filterEntries,ih mem]
      cases belongs sessionId entry <;> rfl

theorem readable_parsedLines {lines : List JsText} (h : .null ∉ parsedLines lines) : Readable (parsedLines lines) := by
  intro entry mem
  refine ⟨fun null => h (null ▸ mem),?_⟩
  rintro rfl
  obtain ⟨line,-,parsed⟩ := List.mem_filterMap.1 mem
  exact Json.parse_ne_undefined line parsed

theorem readEventsFromDisk_eq {sessionId : JsText} {file : Bytes} (h : .null ∉ parsed file) :
    readEventsFromDisk sessionId (some file) =
      List.zipWith numbered (eventSeqs 0 (messagesOf sessionId (parsed file)))
        (messagesOf sessionId (parsed file)) := by
  have messages : (((parsed file).filter fun entry =>
      ((entry.get "message").get "sessionId").strictEq (.str sessionId)).map fun entry => entry.get "message") =
        messagesOf sessionId (parsed file) := by
    rw [messagesOf,List.filter_map]
    rfl
  have readable : Readable (parsed file) := readable_parsedLines h
  simp only [readEventsFromDisk]
  rw [filterEntries_of_readable readable,Option.map_some,Option.getD_some,numberEntries,messages]

theorem readEventsFromDisk_null {sessionId : JsText} {file : Bytes} (h : .null ∈ parsed file) :
    readEventsFromDisk sessionId (some file) = [] := by
  simp only [readEventsFromDisk]
  rw [filterEntries_of_null h]
  rfl

theorem length_eventSeqs (before : Rat) (messages : List Value) :
    (eventSeqs before messages).length = messages.length := by
  induction messages generalizing before with
  | nil => rfl
  | cons message rest ih => rw [eventSeqs,List.length_cons,List.length_cons,ih]

theorem numbered_get (seq : Rat) (message : Value) :
    ((numbered seq message).get "message").get "eventSeq" = .num seq := by
  have inner : (numbered seq message).get "message" =
      .obj (Json.setMember (ofString "eventSeq") (.num seq) (members message)) := rfl
  rw [inner,Value.get,Json.lookup_setMember,if_pos rfl]
  rfl

theorem zipWith_numbered_inj {xs ys : List Rat} {messages : List Value}
    (hx : xs.length = messages.length) (hy : ys.length = messages.length)
    (h : List.zipWith numbered xs messages = List.zipWith numbered ys messages) : xs = ys := by
  induction messages generalizing xs ys with
  | nil => rw [List.length_eq_zero_iff.1 hx,List.length_eq_zero_iff.1 hy]
  | cons message rest ih =>
    obtain ⟨x,xs,rfl⟩ := List.exists_cons_of_length_eq_add_one hx
    obtain ⟨y,ys,rfl⟩ := List.exists_cons_of_length_eq_add_one hy
    rw [List.zipWith_cons_cons,List.zipWith_cons_cons,List.cons.injEq] at h
    have seq := congrArg (fun v : Value => (v.get "message").get "eventSeq") h.1
    simp only [numbered_get,Value.num.injEq] at seq
    rw [seq,ih (by simpa using hx) (by simpa using hy) h.2]

theorem countable_cons (before : Rat) (message : Value) (rest : List Value) :
    Countable before (message :: rest) ↔
      before < eventSeqAfter before message ∧ Countable (eventSeqAfter before message) rest := by
  rw [Countable,eventSeqAfter]
  split
  · split_ifs with larger
    · exact (and_iff_right larger).symm
    · rfl
  · rfl

theorem countable_iff (before : Rat) (messages : List Value) :
    Countable before messages ↔ (before :: eventSeqs before messages).Pairwise (· < ·) := by
  rw [← List.isChain_iff_pairwise]
  induction messages generalizing before with
  | nil => simp [Countable,eventSeqs]
  | cons message rest ih => rw [countable_cons,ih,eventSeqs,List.isChain_cons_cons]

theorem eventSeqAfter_pos (message : Value) : 0 < eventSeqAfter 0 message := by
  have one : 0 < addOne 0 := lt_addOne le_rfl (by norm_num)
  unfold eventSeqAfter
  split
  · split_ifs with larger
    · exact larger
    · exact one
  · exact one

theorem countable_zero_iff (messages : List Value) :
    Countable 0 messages ↔ (eventSeqs 0 messages).Pairwise (· < ·) := by
  rw [countable_iff,← List.isChain_iff_pairwise,← List.isChain_iff_pairwise]
  cases messages with
  | nil => simp [eventSeqs]
  | cons message rest =>
    rw [eventSeqs,List.isChain_cons_cons]
    exact and_iff_right (eventSeqAfter_pos message)

theorem eventSeqs_getElem? {start : Rat} {messages : List Value} {i : Nat} {before seq : Rat} {message : Value}
    (hb : (start :: eventSeqs start messages)[i]? = some before) (hs : (eventSeqs start messages)[i]? = some seq)
    (hm : messages[i]? = some message) : seq = eventSeqAfter before message := by
  induction messages generalizing start i with
  | nil => cases hm
  | cons m rest ih =>
    cases i with
    | zero =>
      cases hb
      cases hs
      cases hm
      rfl
    | succ i => exact ih hb hs hm

theorem eventSeqAfter_explicit {before explicitSeq : Rat} {message : Value}
    (h : message.get "eventSeq" = .num explicitSeq) (larger : before < explicitSeq) :
    eventSeqAfter before message = explicitSeq := by
  rw [eventSeqAfter,h]
  exact if_pos larger

theorem eventSeqs_append (start : Rat) (messages : List Value) (message : Value) :
    ∃ before ∈ start :: eventSeqs start messages, eventSeqs start (messages ++ [message]) =
      eventSeqs start messages ++ [eventSeqAfter before message] := by
  induction messages generalizing start with
  | nil => exact ⟨start,by simp,rfl⟩
  | cons m rest ih =>
    obtain ⟨before,listed,seqs⟩ := ih (eventSeqAfter start m)
    refine ⟨before,List.mem_cons_of_mem _ listed,?_⟩
    rw [List.cons_append,eventSeqs,seqs]
    rfl

end Numbers

/-- The messages of a file are read unless a line of it is null, and their numbers increase as
long as one can be added where a number is missing. -/
theorem recovered_iff (sessionId : JsText) (file : Bytes) :
    (∃ seqs, Recovered (messagesOf sessionId (parsed file)) (readEventsFromDisk sessionId (some file)) seqs) ↔
      (.null ∉ parsed file ∨ messagesOf sessionId (parsed file) = []) ∧
        Countable 0 (messagesOf sessionId (parsed file)) := by
  by_cases null : .null ∈ parsed file
  · rw [readEventsFromDisk_null null]
    constructor
    · rintro ⟨seqs,recovered⟩
      have empty : messagesOf sessionId (parsed file) = [] := by
        have size := congrArg List.length recovered.events
        rw [List.length_zipWith,recovered.whole,Nat.min_self,List.length_nil] at size
        exact List.length_eq_zero_iff.1 size.symm
      exact ⟨.inr empty,by rw [empty]; trivial⟩
    · rintro ⟨fine,-⟩
      have empty := fine.resolve_left (not_not_intro null)
      rw [empty]
      exact ⟨[],rfl,rfl,.nil,fun i _ _ _ _ h => by simp at h⟩
  · rw [readEventsFromDisk_eq null,countable_zero_iff]
    have whole := length_eventSeqs 0 (messagesOf sessionId (parsed file))
    constructor
    · rintro ⟨seqs,recovered⟩
      have same := zipWith_numbered_inj whole recovered.whole recovered.events
      exact ⟨.inl null,same ▸ recovered.increasing⟩
    · rintro ⟨-,increasing⟩
      refine ⟨_,rfl,whole,increasing,fun i before seq message hb hs hm explicitSeq number larger => ?_⟩
      rw [eventSeqs_getElem? hb hs hm,eventSeqAfter_explicit number larger]

section Appended

variable {sessionId : JsText} (e : Event sessionId)

/-- A line that is left open and blank is as good as a new one. -/
theorem parsedLines_blank_entry {torn : JsText} (h : trim torn = []) :
    parsedLines [torn ++ e.entry] = [.obj [(ofString "message",e.written)]] := by
  obtain ⟨inner,entry⟩ := e.entry_eq
  have trimmed : trim (torn ++ e.entry) = e.entry := by
    rw [entry,trim_append torn (by decide) (by decide),trim_eq_nil.1 h,List.nil_append]
  have read : Json.parse (trim (torn ++ e.entry)) = some (.obj [(ofString "message",e.written)]) := by
    rw [trimmed,Json.parse_of_reads e.reads_entry,e.message_written.2.2]
  exact parsedLines_one read (by rw [trimmed,entry]; exact List.cons_ne_nil _ _)

/-- Behind anything else the event and what was there are lost together. -/
theorem parsedLines_torn_entry {torn : JsText} (h : trim torn ≠ []) : parsedLines [torn ++ e.entry] = [] := by
  obtain ⟨inner,entry⟩ := e.entry_eq
  have solid : torn.dropWhile isSpace ≠ [] := fun empty => h (trim_eq_nil.2 empty)
  obtain ⟨u,rest,dropped⟩ := List.exists_cons_of_ne_nil solid
  have first : isSpace u = false := by
    have head := List.head_dropWhile_not isSpace solid
    simpa [dropped] using head
  have trimmed : trim (torn ++ e.entry) = u :: rest ++ e.entry := by
    rw [entry,trim_append torn (by decide) (by decide),dropped]
  have lost : Json.parse (trim (torn ++ e.entry)) = none := by
    rw [trimmed]
    exact Json.parse_object_behind (Json.isBlank_of_isSpace first) e.reads_entry (entry.trans rfl) (by decide)
  exact parsedLines_one lost (by rw [trimmed]; exact List.cons_ne_nil _ _)

theorem parsed_append (file : Bytes) : ∃ whole, parsed file = parsedLines whole ++ parsedLines [tornLine file] ∧
    parsed (file ++ e.bytes) = parsedLines whole ++ parsedLines [tornLine file ++ e.entry] := by
  obtain ⟨inner,entry⟩ := e.entry_eq
  obtain ⟨whole,torn,before,behind⟩ := splitLines_append (decodeUtf8 file)
    (by rw [entry]; exact List.cons_ne_nil _ _) e.printed_entry
  have open' : tornLine file = torn := by
    rw [tornLine,before,List.getLast?_concat]
    rfl
  refine ⟨whole,?_,?_⟩
  · rw [parsed,before,parsedLines_append,open']
  · rw [parsed,e.decodeUtf8_bytes,Event.line]
    change parsedLines (splitLines (decodeUtf8 file ++ (e.entry ++ [0x0a]))) = _
    rw [behind,parsedLines_append,open',show [torn ++ e.entry,[]] = [torn ++ e.entry] ++ [[]] from rfl,
      parsedLines_append,show parsedLines [[]] = [] from rfl,List.append_nil]

theorem messagesOf_append (xs ys : List Value) :
    messagesOf sessionId (xs ++ ys) = messagesOf sessionId xs ++ messagesOf sessionId ys := by
  simp [messagesOf]

theorem messagesOf_event :
    messagesOf sessionId [.obj [(ofString "message",e.written)]] = [e.written] := by
  have own : (e.written.get "sessionId").strictEq (.str sessionId) = true := by
    rw [e.message_written.2.1]
    exact Value.strictEq_str.2 rfl
  have message : (Value.obj [(ofString "message",e.written)]).get "message" = e.written := rfl
  rw [messagesOf,List.map_singleton,message,List.filter_singleton,own]
  rfl

theorem length_readEventsFromDisk (file : Bytes) :
    (readEventsFromDisk sessionId (some file)).length ≤ (messagesOf sessionId (parsed file)).length := by
  by_cases null : .null ∈ parsed file
  · rw [readEventsFromDisk_null null]
    exact Nat.zero_le _
  · rw [readEventsFromDisk_eq null,List.length_zipWith]
    exact Nat.min_le_right _ _

theorem returned_iff (file : Bytes) :
    (∃ seqs last, Returned file e seqs last) ↔ trim (tornLine file) = [] ∧ .null ∉ parsed file := by
  obtain ⟨whole,before,behind⟩ := parsed_append e file
  constructor
  · rintro ⟨seqs,last,returned⟩
    have size := congrArg List.length returned.read
    rw [List.length_append,List.length_zipWith,returned.whole,Nat.min_self,List.length_singleton] at size
    have bound : (readEventsFromDisk sessionId (some (file ++ e.bytes))).length ≤
        (messagesOf sessionId (parsed (file ++ e.bytes))).length := length_readEventsFromDisk _
    have blank : trim (tornLine file) = [] := by
      by_contra torn
      rw [behind,parsedLines_torn_entry e torn,List.append_nil] at bound
      rw [before,messagesOf_append,List.length_append] at size
      omega
    refine ⟨blank,fun null => ?_⟩
    rw [before,parsedLines_blank blank,List.append_nil] at null
    rw [readEventsFromDisk_null (behind ▸ List.mem_append_left _ null)] at size
    cases size
  · rintro ⟨blank,null⟩
    rw [parsedLines_blank blank,List.append_nil] at before
    rw [parsedLines_blank_entry e blank,← before] at behind
    have fine : .null ∉ parsed (file ++ e.bytes) := by
      rw [behind]
      intro mem
      rcases List.mem_append.1 mem with mem | mem
      · exact null mem
      · cases List.mem_singleton.1 mem
    have messages : messagesOf sessionId (parsed (file ++ e.bytes)) =
        messagesOf sessionId (parsed file) ++ [e.written] := by
      rw [behind,messagesOf_append,messagesOf_event]
    have whole := length_eventSeqs 0 (messagesOf sessionId (parsed file))
    obtain ⟨last,listed,seqs⟩ := eventSeqs_append 0 (messagesOf sessionId (parsed file)) e.written
    refine ⟨eventSeqs 0 (messagesOf sessionId (parsed file)),eventSeqAfter last e.written,whole,?_,fun smaller => ?_⟩
    · rw [readEventsFromDisk_eq fine,messages,seqs,List.zipWith_append whole]
      rfl
    · refine eventSeqAfter_explicit e.message_written.1 ?_
      rcases List.mem_cons.1 listed with rfl | listed
      · exact e.positive
      · exact smaller last listed

end Appended

/-- Exactly when a file gives back what is whole in it, and exactly when it gives back an event
that is appended. -/
theorem readEventsFromDisk_recovers_iff (sessionId : JsText) (file : Bytes) :
    ((∃ seqs, Recovered (messagesOf sessionId (parsed file)) (readEventsFromDisk sessionId (some file)) seqs) ↔
      (.null ∉ parsed file ∨ messagesOf sessionId (parsed file) = []) ∧
        Countable 0 (messagesOf sessionId (parsed file))) ∧
    ∀ e : Event sessionId, (∃ seqs last, Returned file e seqs last) ↔
      trim (tornLine file) = [] ∧ .null ∉ parsed file :=
  ⟨recovered_iff sessionId file,fun e => returned_iff e file⟩

/-- `{sessionId: "s"}` under the number three. -/
def thirdEvent : Event (ofString "s") where
  message := .obj [(ofString "sessionId",.str (ofString "s"))]
  eventSeq := 3
  value := by
    refine .obj _ (List.pairwise_singleton _ _) ?_
    intro m mem
    rw [List.mem_singleton.mp mem]
    exact .str _
  session := rfl
  double := isDouble_natCast (n := 3) (by norm_num)
  positive := by norm_num

/-- An event of the session, a line that is no JSON and the line break behind it. -/
def corruptFile : Bytes := encodeUtf8 (ofString "\x7b\"message\":\x7b\"sessionId\":\"s\"\x7d\x7d\n\x7bnul\n")

theorem parsed_corruptFile :
    parsed corruptFile = [.obj [(ofString "message",thirdEvent.message)]] := rfl

theorem thirdEvent_returned :
    messagesOf (ofString "s") (parsed corruptFile) = [thirdEvent.message] ∧
      ∃ seqs last, Returned corruptFile thirdEvent seqs last := by
  refine ⟨rfl,((readEventsFromDisk_recovers_iff (ofString "s") corruptFile).2 thirdEvent).mpr
    ⟨by decide,?_⟩⟩
  rw [parsed_corruptFile]
  simp

/-- An event of the session and a line that holds null. -/
def nullFile : Bytes := encodeUtf8 (ofString "\x7b\"message\":\x7b\"sessionId\":\"s\"\x7d\x7d\nnull\n")

theorem nullFile_not_recovered : ¬ ∀ (sessionId : JsText) (file : Bytes),
    (∃ seqs, Recovered (messagesOf sessionId (parsed file)) (readEventsFromDisk sessionId (some file)) seqs) ∧
      ∀ e : Event sessionId, ∃ seqs last, Returned file e seqs last := by
  intro h
  obtain ⟨seqs,recovered⟩ := (h (ofString "s") nullFile).1
  have size := congrArg List.length recovered.events
  rw [List.length_zipWith,recovered.whole,Nat.min_self] at size
  have none : (readEventsFromDisk (ofString "s") (some nullFile)).length = 0 := by decide
  have one : (messagesOf (ofString "s") (parsed nullFile)).length = 1 := by decide
  rw [none,one] at size
  cases size

end CodeHarbor.Gateway.EventFile
