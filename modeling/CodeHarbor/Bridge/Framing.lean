import CodeHarbor.Bridge.Processes
import CodeHarbor.Lib.Decoding
set_option autoImplicit false

namespace CodeHarbor.Bridge
open Lib Lib.Js

/-! The stdout of one app-server process as lines. Its bytes come in chunks that may end
anywhere. -/

/-- `this.stdoutBuffer` and `this.stdoutDecoder`. -/
structure Stdout where
  stdoutBuffer : JsText := []
  stdoutDecoder : StringDecoder := {}
  deriving DecidableEq, Repr

def handledLines (lines : List JsText) : List JsText := (lines.map trim).filter (· ≠ [])

/-- A chunk: what is left in the buffer, and the lines that are handed on. None when the
buffer is given up. -/
def Stdout.onData (o : Stdout) (chunk : Bytes) : Option (Stdout × List JsText) :=
  let written := o.stdoutDecoder.write chunk
  let buffer := o.stdoutBuffer ++ written.2
  if maxStdoutBufferBytes < byteLength buffer then none
  else
    let lines := splitLines buffer
    some (⟨lines.2,written.1⟩,handledLines lines.1)

def Stdout.read : Stdout → List Bytes → Option (Stdout × List JsText)
  | o, [] => some (o,[])
  | o, chunk :: chunks => do
    let (next,lines) ← o.onData chunk
    let (last,rest) ← next.read chunks
    some (last,lines ++ rest)

def ProcessBridge.stdout (s : ProcessBridge) : Stdout := ⟨s.stdoutBuffer,s.stdoutDecoder⟩

def ProcessBridge.handleMessage (parse : JsText → Option Line) (pid : Nat) (s : ProcessBridge)
    (raw : JsText) : ProcessBridge :=
  match parse raw with
  | none => s
  | some read => s.call read.failed (s.rpc.step (.message pid read.message))

section Lines

theorem splitLines_append (front rest : JsText) :
    splitLines (front ++ rest) = ((splitLines front).1 ++ (splitLines ((splitLines front).2 ++ rest)).1,
      (splitLines ((splitLines front).2 ++ rest)).2) := by
  induction front with
  | nil => simp [splitLines]
  | cons u front ih =>
    by_cases break_here : u = 0x0a
    · simp [splitLines,break_here,ih]
    · cases whole : (splitLines front).1 with
      | nil =>
        rw [whole,List.nil_append] at ih
        rw [List.cons_append,splitLines,splitLines,ih,whole]
        simp [splitLines,break_here]
      | cons line lines =>
        rw [whole,List.cons_append] at ih
        rw [List.cons_append,splitLines,splitLines,ih,whole]
        simp [break_here]

theorem handledLines_append (front rest : List JsText) :
    handledLines (front ++ rest) = handledLines front ++ handledLines rest := by
  rw [handledLines,List.map_append,List.filter_append]
  rfl

end Lines

section Chunks

/-- What the process has written so far says what stands in the buffer and what the decoder
holds. -/
def Stdout.behind (bytes : Bytes) : Stdout := ⟨(splitLines (decoded bytes)).2,⟨heldBack bytes⟩⟩

def linesOf (bytes : Bytes) : List JsText := handledLines (splitLines (decoded bytes)).1

theorem Stdout.onData_behind {bytes chunk : Bytes} {o : Stdout} {lines : List JsText}
    (h : (behind bytes).onData chunk = some (o,lines)) :
    o = behind (bytes ++ chunk) ∧ linesOf (bytes ++ chunk) = linesOf bytes ++ lines := by
  obtain ⟨held,text⟩ := write_heldBack bytes chunk
  have split := splitLines_append (decoded bytes) (StringDecoder.write ⟨heldBack bytes⟩ chunk).2
  rw [← text] at split
  unfold onData at h
  dsimp only [behind] at h
  split_ifs at h
  obtain ⟨rfl,rfl⟩ : _ ∧ _ := by simpa only [Option.some.injEq,Prod.mk.injEq] using h
  refine ⟨?_,?_⟩
  · rw [behind,split,held]
  · rw [linesOf,split,handledLines_append]
    rfl

theorem Stdout.read_behind {bytes : Bytes} {chunks : List Bytes} {o : Stdout} {lines : List JsText}
    (h : (behind bytes).read chunks = some (o,lines)) :
    o = behind (bytes ++ chunks.flatten) ∧ linesOf (bytes ++ chunks.flatten) = linesOf bytes ++ lines := by
  induction chunks generalizing bytes lines with
  | nil =>
    cases h
    simp
  | cons chunk chunks ih =>
    rw [read] at h
    obtain ⟨⟨next,first⟩,one,rest⟩ := Option.bind_eq_some_iff.1 h
    obtain ⟨⟨last,others⟩,more,whole⟩ := Option.bind_eq_some_iff.1 rest
    cases whole
    obtain ⟨rfl,begins⟩ := onData_behind one
    obtain ⟨left,goes_on⟩ := ih more
    rw [List.append_assoc] at left goes_on
    rw [List.flatten_cons]
    exact ⟨left,by rw [goes_on,begins,List.append_assoc]⟩

end Chunks

section Handlers

variable {parse : JsText → Option Line} {pid : Nat}

theorem ProcessBridge.foldl_handleMessage (lines : List JsText) (s : ProcessBridge) (o : Stdout) :
    lines.foldl (handleMessage parse pid) { s with stdoutBuffer := o.stdoutBuffer, stdoutDecoder := o.stdoutDecoder } =
      { lines.foldl (handleMessage parse pid) s with
        stdoutBuffer := o.stdoutBuffer, stdoutDecoder := o.stdoutDecoder } := by
  induction lines generalizing s with
  | nil => rfl
  | cons line lines ih =>
    rw [List.foldl_cons,List.foldl_cons,← ih]
    congr 1
    unfold handleMessage
    cases parse line <;> rfl

theorem ProcessBridge.foldl_handleLine (lines : List JsText) (s : ProcessBridge) :
    lines.foldl (handleLine parse pid) s = (handledLines lines).foldl (handleMessage parse pid) s := by
  induction lines generalizing s with
  | nil => rfl
  | cons line lines ih =>
    rw [List.foldl_cons,ih,handledLines,handledLines,List.map_cons,List.filter_cons]
    by_cases blank : trim line = []
    · simp [handleLine,blank]
    · simp only [handleLine,blank,if_false]
      rw [if_pos (by simpa using blank)]
      rfl

theorem ProcessBridge.onData_eq {s : ProcessBridge} {chunk : Bytes} {o : Stdout} {lines : List JsText}
    (h : s.stdout.onData chunk = some (o,lines)) :
    s.onData parse pid chunk = lines.foldl (handleMessage parse pid)
      { s with stdoutBuffer := o.stdoutBuffer, stdoutDecoder := o.stdoutDecoder } := by
  unfold Stdout.onData at h
  dsimp only [stdout] at h
  split_ifs at h with limit
  obtain ⟨rfl,rfl⟩ : _ ∧ _ := by simpa only [Option.some.injEq,Prod.mk.injEq] using h
  rw [onData,handleStdoutChunk,if_neg limit]
  exact foldl_handleLine _ _

theorem ProcessBridge.foldl_onData {chunks : List Bytes} {s : ProcessBridge} {o : Stdout}
    {lines : List JsText} (h : s.stdout.read chunks = some (o,lines)) :
    chunks.foldl (onData parse pid) s = { lines.foldl (handleMessage parse pid) s with
      stdoutBuffer := o.stdoutBuffer, stdoutDecoder := o.stdoutDecoder } := by
  induction chunks generalizing s lines with
  | nil =>
    cases h
    rfl
  | cons chunk chunks ih =>
    rw [Stdout.read] at h
    obtain ⟨⟨next,first⟩,one,rest⟩ := Option.bind_eq_some_iff.1 h
    obtain ⟨⟨last,others⟩,more,whole⟩ := Option.bind_eq_some_iff.1 rest
    cases whole
    have step : s.onData parse pid chunk = { first.foldl (handleMessage parse pid) s with
        stdoutBuffer := next.stdoutBuffer, stdoutDecoder := next.stdoutDecoder } := by
      rw [onData_eq one,foldl_handleMessage]
    have next_read : (s.onData parse pid chunk).stdout.read chunks = some (o,others) := by
      rw [step]
      exact more
    rw [List.foldl_cons,ih next_read,step,foldl_handleMessage,List.foldl_append]

end Handlers

/-- However the output of a process is cut, the bridge hands the same lines to `handleMessage`,
those of the decoded stream, one after another, and is left with the same buffer. -/
theorem Stdout.read_chunks {chunks chunks' : List Bytes} (same : chunks.flatten = chunks'.flatten)
    {o o' : Stdout} {lines lines' : List JsText} (h : Stdout.read {} chunks = some (o,lines))
    (h' : Stdout.read {} chunks' = some (o',lines')) :
    lines = lines' ∧ o = o' ∧
      lines = handledLines (splitLines (decoded chunks.flatten)).1 ∧
      o.stdoutBuffer = (splitLines (decoded chunks.flatten)).2 ∧
      ∀ (parse : JsText → Option Line) (pid : Nat) (s : ProcessBridge), s.stdout = {} →
        chunks.foldl (ProcessBridge.onData parse pid) s =
          { lines.foldl (ProcessBridge.handleMessage parse pid) s with
            stdoutBuffer := o.stdoutBuffer, stdoutDecoder := o.stdoutDecoder } ∧
        chunks'.foldl (ProcessBridge.onData parse pid) s =
          { lines.foldl (ProcessBridge.handleMessage parse pid) s with
            stdoutBuffer := o.stdoutBuffer, stdoutDecoder := o.stdoutDecoder } := by
  have start : (behind []).read chunks = some (o,lines) := h
  have start' : (behind []).read chunks' = some (o',lines') := h'
  obtain ⟨left,handed⟩ := read_behind start
  obtain ⟨left',handed'⟩ := read_behind start'
  have lines_eq : lines = handledLines (splitLines (decoded chunks.flatten)).1 := handed.symm
  have lines_eq' : lines' = handledLines (splitLines (decoded chunks'.flatten)).1 := handed'.symm
  have same_lines : lines = lines' := by rw [lines_eq,lines_eq',same]
  have same_left : o = o' := by rw [left,left',same]
  refine ⟨same_lines,same_left,lines_eq,by rw [left]; rfl,?_⟩
  intro parse pid s fresh
  rw [← fresh] at h h'
  refine ⟨ProcessBridge.foldl_onData h,?_⟩
  rw [ProcessBridge.foldl_onData h',same_lines,same_left]

namespace Sample

/-- Two lines and the beginning of a third one, cut within the character é and between CR
and LF, and byte by byte. -/
def cutChunks : List Bytes := [[0x61,0xc3],[0xa9,0x0d],[0x0a,0x20,0x0a,0x62,0xe2]]

def singleBytes : List Bytes := cutChunks.flatten.map fun b => [b]

end Sample

theorem cutChunks_read :
    Stdout.read {} Sample.cutChunks = some (⟨[0x62],⟨[0xe2]⟩⟩,[[0x61,0xe9]]) ∧
    Stdout.read {} Sample.singleBytes = some (⟨[0x62],⟨[0xe2]⟩⟩,[[0x61,0xe9]]) ∧
    ∀ parse : JsText → Option Line,
      Sample.singleBytes.foldl (ProcessBridge.onData parse 0) {} =
        { ProcessBridge.handleMessage parse 0 {} [0x61,0xe9] with
          stdoutBuffer := [0x62], stdoutDecoder := ⟨[0xe2]⟩ } := by
  have cut : Stdout.read {} Sample.cutChunks = some (⟨[0x62],⟨[0xe2]⟩⟩,[[0x61,0xe9]]) := by decide
  have single : Stdout.read {} Sample.singleBytes = some (⟨[0x62],⟨[0xe2]⟩⟩,[[0x61,0xe9]]) := by decide
  refine ⟨cut,single,fun parse => ?_⟩
  exact ((Stdout.read_chunks (by decide) cut single).2.2.2.2 parse 0 {} rfl).2

end CodeHarbor.Bridge
