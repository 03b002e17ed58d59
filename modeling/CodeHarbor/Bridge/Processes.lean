import CodeHarbor.Bridge.Rpc
import CodeHarbor.Lib.Utf8
set_option autoImplicit false

namespace CodeHarbor.Bridge
open Lib Lib.Js

/-! The app-server processes behind the bridge. Each child has handlers of its own, but all
of them work on the fields of the bridge. -/

def maxStdoutBufferBytes : Nat := 32*1024*1024

/-- What `JSON.parse` makes of a line, none for a line that is no object; `failed` tells that
it has an error. -/
structure Line where
  message : Message
  failed : Bool := false
  deriving DecidableEq, Repr

/-- Where `connect` stands: behind the spawn, waiting for the answer to `initialize`, or with
that answer in hand. -/
inductive Connecting where
  | spawned
  | initializing (id : RpcId)
  | answered (ok : Bool)
  deriving DecidableEq, Repr

structure ProcessBridge where
  rpc : CodexBridge := {}
  ready : Bool := false
  connecting : Option Connecting := none
  stdoutBuffer : JsText := []
  stdoutDecoder : StringDecoder := {}
  deriving DecidableEq, Repr

def Child.running (child : Child) : Bool := !child.killed

def Connecting.settle (failed : Bool) (out : List BridgeEvent) : Connecting → Connecting
  | .initializing id =>
    match out.find? (fun e => match e with | .settled id' _ => id' = id | _ => false) with
    | some (.settled _ (.message _)) => .answered !failed
    | some _ => .answered false
    | none => .initializing id
  | stage => stage

def ProcessBridge.call (s : ProcessBridge) (failed : Bool) (next : CodexBridge × List BridgeEvent) :
    ProcessBridge :=
  { s with rpc := next.1, connecting := s.connecting.map (Connecting.settle failed next.2) }

/-- `ensureReady`, up to the end of the spawn. -/
def ProcessBridge.ensureReady (s : ProcessBridge) : ProcessBridge :=
  if s.ready ∧ s.rpc.child.any Child.running then s
  else if s.connecting.isSome then s
  else if s.rpc.child.any Child.running then { s with ready := false, connecting := some .spawned }
  else
    { s with
      ready := false
      connecting := some .spawned
      stdoutBuffer := []
      stdoutDecoder := {}
      rpc := (s.rpc.step .spawn).1 }

/-- The request of `initialize`, which throws when it cannot be sent. -/
def ProcessBridge.sendInitialize (s : ProcessBridge) : ProcessBridge :=
  match s.connecting with
  | some .spawned =>
    let next := s.rpc.step (.sendRequest "initialize")
    match next.2 with
    | [.sent id] => { s with rpc := next.1, connecting := some (.initializing id) }
    | _ => { s with rpc := next.1, connecting := none }
  | _ => s

/-- The end of `connect`: the note `initialized` is written, or it fails. -/
def ProcessBridge.connected (s : ProcessBridge) : ProcessBridge :=
  match s.connecting with
  | some (.answered ok) =>
    { s with connecting := none, ready := s.ready || (ok && s.rpc.target.isSome) }
  | _ => s

def ProcessBridge.shutdown (s : ProcessBridge) : ProcessBridge :=
  { s with ready := false }.call false (s.rpc.step .shutdown)

def splitLines : JsText → List JsText × JsText
  | [] => ([],[])
  | u :: rest =>
    let next := splitLines rest
    if u = 0x0a then ([] :: next.1,next.2)
    else
      match next.1 with
      | [] => ([],u :: next.2)
      | line :: lines => ((u :: line) :: lines,next.2)

def ProcessBridge.handleLine (parse : JsText → Option Line) (pid : Nat) (s : ProcessBridge)
    (line : JsText) : ProcessBridge :=
  match (if trim line = [] then none else parse (trim line)) with
  | none => s
  | some read => s.call read.failed (s.rpc.step (.message pid read.message))

def ProcessBridge.handleStdoutChunk (parse : JsText → Option Line) (pid : Nat) (s : ProcessBridge)
    (chunk : JsText) : ProcessBridge :=
  let buffer := s.stdoutBuffer ++ chunk
  if maxStdoutBufferBytes < byteLength buffer then
    { s with stdoutBuffer := [] }.call false (s.rpc.step .outputLimit)
  else
    let lines := splitLines buffer
    lines.1.foldl (ProcessBridge.handleLine parse pid) { s with stdoutBuffer := lines.2 }

def ProcessBridge.onData (parse : JsText → Option Line) (pid : Nat) (s : ProcessBridge)
    (chunk : Bytes) : ProcessBridge :=
  let written := s.stdoutDecoder.write chunk
  { s with stdoutDecoder := written.1 }.handleStdoutChunk parse pid written.2

def ProcessBridge.onStdinError (s : ProcessBridge) : ProcessBridge :=
  { s with ready := false }.call false (s.rpc.step .stdinError)

/-- The handlers of `error` and of `exit` of a child do the same to the bridge. -/
def ProcessBridge.onExit (s : ProcessBridge) : ProcessBridge :=
  { s with ready := false }.call false (s.rpc.step .exit)

/-- Steps of the protocol that no process causes. -/
def BridgeInput.isCall : BridgeInput → Bool
  | .setPolicy _ _ | .sendRequest _ | .timeout _ | .auditDone _ _ | .approvalTimeout _
  | .resolveApproval _ _ _ _ | .proceed _ => true
  | _ => false

/-- The events of a child carry its number. `stdinClosed` is no event: the pipe of the child
stops being writable. -/
inductive ProcessInput where
  | ensureReady
  | sendInitialize
  | connected
  | shutdown
  | call (i : BridgeInput)
  | stdinClosed (pid : Nat)
  | data (pid : Nat) (chunk : Bytes)
  | stdinError (pid : Nat)
  | error (pid : Nat)
  | exit (pid : Nat)
  deriving DecidableEq, Repr

def ProcessInput.source : ProcessInput → Option Nat
  | .data pid _ | .stdinError pid | .error pid | .exit pid => some pid
  | _ => none

def ProcessBridge.step (parse : JsText → Option Line) (s : ProcessBridge) : ProcessInput → ProcessBridge
  | .ensureReady => s.ensureReady
  | .sendInitialize => s.sendInitialize
  | .connected => s.connected
  | .shutdown => s.shutdown
  | .call i => if i.isCall then s.call false (s.rpc.step i) else s
  | .stdinClosed pid =>
    if s.rpc.child.any (·.pid = pid) then s.call false (s.rpc.step .stdinClosed) else s
  | .data pid chunk => if pid < s.rpc.nextPid then s.onData parse pid chunk else s
  | .stdinError pid => if pid < s.rpc.nextPid then s.onStdinError else s
  | .error pid => if pid < s.rpc.nextPid then s.onExit else s
  | .exit pid => if pid < s.rpc.nextPid then s.onExit else s

/-- The fields that serve the running child. -/
structure ServerFields where
  child : Option Child
  ready : Bool
  pending : OrdMap RpcId String
  pendingApprovals : OrdMap String PendingApproval
  stdoutBuffer : JsText
  stdoutDecoder : StringDecoder
  deriving DecidableEq, Repr

def ProcessBridge.fields (s : ProcessBridge) : ServerFields where
  child := s.rpc.child
  ready := s.ready
  pending := s.rpc.pending
  pendingApprovals := s.rpc.pendingApprovals
  stdoutBuffer := s.stdoutBuffer
  stdoutDecoder := s.stdoutDecoder

def ProcessBridge.Superseded (s : ProcessBridge) (pid : Nat) : Prop := pid+1 < s.rpc.nextPid

/-- If the input is an event of a superseded child, it leaves the fields alone. -/
def ProcessBridge.Undisturbed (parse : JsText → Option Line) (s : ProcessBridge) (i : ProcessInput) :
    Prop :=
  ∀ pid, i.source = some pid → s.Superseded pid → (s.step parse i).fields = s.fields

def ProcessBridge.Idle (s : ProcessBridge) : Prop :=
  s.rpc.pending = OrdMap.empty ∧ s.rpc.pendingApprovals = OrdMap.empty

def ProcessBridge.Answers (parse : JsText → Option Line) (s : ProcessBridge) (line : JsText) : Prop :=
  trim line ≠ [] ∧ ∃ read id, parse (trim line) = some read ∧ read.message.id = some id ∧
    s.rpc.pending.has id = true

/-- A chunk that changes nothing: it completes no character, leaves as much of a line as was
there before, and answers nothing; or it is too much, and there is nothing to lose. -/
def ProcessBridge.HarmlessChunk (parse : JsText → Option Line) (s : ProcessBridge) (chunk : Bytes) :
    Prop :=
  let written := s.stdoutDecoder.write chunk
  let buffer := s.stdoutBuffer ++ written.2
  written.1 = s.stdoutDecoder ∧
    if maxStdoutBufferBytes < byteLength buffer then
      s.stdoutBuffer = [] ∧ s.Idle ∧ s.rpc.child.map Child.kill = s.rpc.child
    else (splitLines buffer).2 = s.stdoutBuffer ∧ ∀ line ∈ (splitLines buffer).1, ¬ s.Answers parse line

/-- Of a superseded child come only chunks that change nothing, errors of its stdin while
nothing is ready or pending, and its end while, besides, no child is there. -/
def ProcessBridge.Harmless (parse : JsText → Option Line) (s : ProcessBridge) : ProcessInput → Prop
  | .data pid chunk => s.Superseded pid → s.HarmlessChunk parse chunk
  | .stdinError pid => s.Superseded pid → s.ready = false ∧ s.Idle
  | .error pid => s.Superseded pid → s.ready = false ∧ s.Idle ∧ s.rpc.child = none
  | .exit pid => s.Superseded pid → s.ready = false ∧ s.Idle ∧ s.rpc.child = none
  | _ => True

section Steps

variable {parse : JsText → Option Line} {s : ProcessBridge}

theorem ProcessBridge.fields_call (failed : Bool) (next : CodexBridge × List BridgeEvent) :
    (s.call failed next).fields = { s.fields with
      child := next.1.child
      pending := next.1.pending
      pendingApprovals := next.1.pendingApprovals } := rfl

theorem ProcessBridge.fields_onExit : s.onExit.fields = { s.fields with
    child := none
    ready := false
    pending := OrdMap.empty
    pendingApprovals := OrdMap.empty } := rfl

theorem ProcessBridge.fields_onStdinError : s.onStdinError.fields = { s.fields with
    ready := false
    pending := OrdMap.empty
    pendingApprovals := OrdMap.empty } := rfl

theorem ProcessBridge.onExit_iff :
    s.onExit.fields = s.fields ↔ s.ready = false ∧ s.Idle ∧ s.rpc.child = none := by
  rw [fields_onExit]
  simp only [fields,ServerFields.mk.injEq,Idle,and_true]
  tauto

theorem ProcessBridge.onStdinError_iff : s.onStdinError.fields = s.fields ↔ s.ready = false ∧ s.Idle := by
  rw [fields_onStdinError]
  simp only [fields,ServerFields.mk.injEq,Idle,and_true]
  tauto

theorem CodexBridge.handleMessage_fields {b : CodexBridge} {m : Message}
    (h : ∀ id, m.id = some id → b.pending.has id = false) (pid : Nat) :
    (b.handleMessage pid m).1.child = b.child ∧ (b.handleMessage pid m).1.pending = b.pending ∧
      (b.handleMessage pid m).1.pendingApprovals = b.pendingApprovals := by
  unfold CodexBridge.handleMessage
  cases hid : m.id with
  | none => exact ⟨rfl,rfl,rfl⟩
  | some id =>
    dsimp only
    rw [if_neg (by rw [h id hid]; exact Bool.false_ne_true)]
    cases m.method with
    | none => exact ⟨rfl,rfl,rfl⟩
    | some method => exact ⟨rfl,rfl,rfl⟩

theorem ProcessBridge.handleLine_of_not_answers {line : JsText} (h : ¬ s.Answers parse line)
    (pid : Nat) : (s.handleLine parse pid line).fields = s.fields := by
  unfold handleLine
  by_cases hblank : trim line = []
  · rw [if_pos hblank]
  · rw [if_neg hblank]
    cases hread : parse (trim line) with
    | none => rfl
    | some read =>
      have hnone : ∀ id, read.message.id = some id → s.rpc.pending.has id = false := by
        intro id hid
        by_contra hhas
        exact h ⟨hblank,read,id,hread,hid,by simpa using hhas⟩
      obtain ⟨hchild,hpending,happrovals⟩ := CodexBridge.handleMessage_fields hnone pid
      dsimp only
      rw [fields_call]
      simp only [CodexBridge.step,hchild,hpending,happrovals]
      rfl

theorem ProcessBridge.handleLine_of_answers {line : JsText} (h : s.Answers parse line) (pid : Nat) :
    ∃ id, s.rpc.pending.has id = true ∧
      (s.handleLine parse pid line).rpc.pending = s.rpc.pending.erase id := by
  obtain ⟨hblank,read,id,hread,hid,hhas⟩ := h
  refine ⟨id,hhas,?_⟩
  unfold handleLine
  rw [if_neg hblank,hread]
  simp only [call,CodexBridge.step,CodexBridge.handleMessage,hid,hhas,if_true]

theorem ProcessBridge.has_handleLine {pid : Nat} {line : JsText} {id : RpcId}
    (h : (s.handleLine parse pid line).rpc.pending.has id = true) : s.rpc.pending.has id = true := by
  by_cases hanswers : s.Answers parse line
  · obtain ⟨other,-,hpending⟩ := handleLine_of_answers hanswers pid
    rw [hpending,OrdMap.has,OrdMap.get_erase] at h
    split_ifs at h
    · cases h
    · exact h
  · have hfields := congrArg ServerFields.pending (handleLine_of_not_answers hanswers pid)
    have hpending : (s.handleLine parse pid line).rpc.pending = s.rpc.pending := hfields
    rw [hpending] at h
    exact h

theorem ProcessBridge.has_foldl {pid : Nat} {lines : List JsText} {id : RpcId}
    (h : (lines.foldl (handleLine parse pid) s).rpc.pending.has id = true) :
    s.rpc.pending.has id = true := by
  induction lines generalizing s with
  | nil => exact h
  | cons line lines ih => exact has_handleLine (ih h)

theorem ProcessBridge.Answers.congr {s' : ProcessBridge} (h : s'.fields = s.fields) {line : JsText} :
    s'.Answers parse line ↔ s.Answers parse line := by
  have hpending : s'.rpc.pending = s.rpc.pending := congrArg ServerFields.pending h
  unfold Answers
  rw [hpending]

theorem ProcessBridge.foldl_handleLine_iff (pid : Nat) (lines : List JsText) :
    (lines.foldl (handleLine parse pid) s).fields = s.fields ↔
      ∀ line ∈ lines, ¬ s.Answers parse line := by
  induction lines generalizing s with
  | nil => simp
  | cons line lines ih =>
    rw [List.foldl_cons,List.forall_mem_cons]
    by_cases hanswers : s.Answers parse line
    · refine iff_of_false ?_ (fun h => h.1 hanswers)
      intro hsame
      obtain ⟨id,hhas,hpending⟩ := handleLine_of_answers hanswers pid
      have hlast : (lines.foldl (handleLine parse pid) (s.handleLine parse pid line)).rpc.pending =
          s.rpc.pending := congrArg ServerFields.pending hsame
      have hstill := @has_foldl parse (s.handleLine parse pid line) pid lines id (by rw [hlast]; exact hhas)
      rw [hpending,OrdMap.has_erase_self] at hstill
      cases hstill
    · have hfields := handleLine_of_not_answers hanswers pid
      rw [← hfields,ih]
      simp only [Answers.congr hfields,hanswers,not_false_eq_true,true_and]

theorem ProcessBridge.foldl_handleLine_buffer (pid : Nat) (lines : List JsText) :
    (lines.foldl (handleLine parse pid) s).stdoutBuffer = s.stdoutBuffer ∧
      (lines.foldl (handleLine parse pid) s).stdoutDecoder = s.stdoutDecoder := by
  induction lines generalizing s with
  | nil => exact ⟨rfl,rfl⟩
  | cons line lines ih =>
    have hone : (s.handleLine parse pid line).stdoutBuffer = s.stdoutBuffer ∧
        (s.handleLine parse pid line).stdoutDecoder = s.stdoutDecoder := by
      unfold handleLine
      split
      · exact ⟨rfl,rfl⟩
      · exact ⟨rfl,rfl⟩
    rw [List.foldl_cons]
    exact ⟨ih.1.trans hone.1,ih.2.trans hone.2⟩

theorem ProcessBridge.onData_iff (pid : Nat) (chunk : Bytes) :
    (s.onData parse pid chunk).fields = s.fields ↔ s.HarmlessChunk parse chunk := by
  unfold onData HarmlessChunk handleStdoutChunk
  dsimp only
  generalize s.stdoutDecoder.write chunk = written
  by_cases hlimit : maxStdoutBufferBytes < byteLength (s.stdoutBuffer ++ written.2)
  · rw [if_pos hlimit,if_pos hlimit,fields_call]
    simp only [fields,ServerFields.mk.injEq,Idle,CodexBridge.step,CodexBridge.rejectAll]
    tauto
  · rw [if_neg hlimit,if_neg hlimit]
    generalize splitLines (s.stdoutBuffer ++ written.2) = lines
    generalize ht : { s with stdoutDecoder := written.1, stdoutBuffer := lines.2 } = t
    have hbuffer : t.stdoutBuffer = lines.2 := by rw [← ht]
    have hdecoder : t.stdoutDecoder = written.1 := by rw [← ht]
    have hkept := @foldl_handleLine_buffer parse t pid lines.1
    constructor
    · intro hsame
      have hrest : lines.2 = s.stdoutBuffer :=
        (hbuffer.symm.trans hkept.1.symm).trans (congrArg ServerFields.stdoutBuffer hsame)
      have hheld : written.1 = s.stdoutDecoder :=
        (hdecoder.symm.trans hkept.2.symm).trans (congrArg ServerFields.stdoutDecoder hsame)
      have hfields : t.fields = s.fields := by rw [← ht,hrest,hheld]
      refine ⟨hheld,hrest,?_⟩
      rw [← hfields,foldl_handleLine_iff] at hsame
      exact fun line hline => (Answers.congr hfields).not.mp (hsame line hline)
    · rintro ⟨hheld,hrest,hlines⟩
      have hfields : t.fields = s.fields := by rw [← ht,hrest,hheld]
      rw [← hfields,foldl_handleLine_iff]
      exact fun line hline => (Answers.congr hfields).not.mpr (hlines line hline)

theorem ProcessBridge.undisturbed_iff (i : ProcessInput) :
    s.Undisturbed parse i ↔ s.Harmless parse i := by
  have hknown {pid : Nat} (h : s.Superseded pid) : pid < s.rpc.nextPid := Nat.lt_of_succ_lt h
  unfold Undisturbed
  cases i with
  | data pid chunk =>
    simp only [ProcessInput.source,Option.some.injEq,forall_eq',Harmless,step]
    refine forall_congr' (fun h => ?_)
    rw [if_pos (hknown h),onData_iff]
  | stdinError pid =>
    simp only [ProcessInput.source,Option.some.injEq,forall_eq',Harmless,step]
    refine forall_congr' (fun h => ?_)
    rw [if_pos (hknown h),onStdinError_iff]
  | error pid =>
    simp only [ProcessInput.source,Option.some.injEq,forall_eq',Harmless,step]
    refine forall_congr' (fun h => ?_)
    rw [if_pos (hknown h),onExit_iff]
  | exit pid =>
    simp only [ProcessInput.source,Option.some.injEq,forall_eq',Harmless,step]
    refine forall_congr' (fun h => ?_)
    rw [if_pos (hknown h),onExit_iff]
  | _ => simp [ProcessInput.source,Harmless]

end Steps

/-- An event of a superseded child: the fields before and after its handler. -/
structure LateEvent where
  before : ServerFields
  after : ServerFields
  deriving DecidableEq, Repr

instance (s : ProcessBridge) (pid : Nat) : Decidable (s.Superseded pid) :=
  inferInstanceAs (Decidable (_ < _))

def processes (parse : JsText → Option Line) : Machine ProcessBridge ProcessInput LateEvent where
  init s := s = {}
  step s i := (s.step parse i,
    if i.source.any (fun pid => decide (s.Superseded pid)) then [⟨s.fields,(s.step parse i).fields⟩] else [])

def Untouched (late : List LateEvent) : Prop := ∀ e ∈ late, e.after = e.before

instance (late : List LateEvent) : Decidable (Untouched late) :=
  inferInstanceAs (Decidable (∀ e ∈ late, _))

theorem untouched_step (parse : JsText → Option Line) (late : List LateEvent) (s : ProcessBridge)
    (i : ProcessInput) :
    Untouched (late ++ ((processes parse).step s i).2) ↔ Untouched late ∧ s.Harmless parse i := by
  have happend : Untouched (late ++ ((processes parse).step s i).2) ↔
      Untouched late ∧ Untouched ((processes parse).step s i).2 := List.forall_mem_append
  rw [happend,← ProcessBridge.undisturbed_iff]
  refine and_congr_right (fun _ => ?_)
  unfold ProcessBridge.Undisturbed processes
  dsimp only
  cases hsource : i.source with
  | none => simp [Untouched]
  | some pid =>
    by_cases hlate : s.Superseded pid
    · simp [Untouched,hlate]
    · simp [Untouched,hlate]

/-- In a run of the bridge the late events touch nothing exactly when each of them is
harmless where it comes. -/
theorem late_untouched_iff (parse : JsText → Option Line) (is : List ProcessInput) :
    Untouched ((processes parse).exec [] {} is).1 ↔
      (processes parse).Allowed (fun _ s i => s.Harmless parse i) [] {} is := by
  have hexact := @Machine.exec_iff_allowed _ _ _ (processes parse) (fun _ s i => s.Harmless parse i)
    (fun _ _ => True) Untouched (fun _ _ _ _ => trivial) (fun late s i _ => untouched_step parse late s i)
    is [] {} trivial
  rw [hexact]
  exact and_iff_right (fun e he => absurd he List.not_mem_nil)

namespace Sample

/-- The answers to the first two requests of the bridge. -/
def parse (line : JsText) : Option Line :=
  if line = ofString "one" then some { message := { id := some (.num "1") } }
  else if line = ofString "two" then some { message := { id := some (.num "2") } }
  else none

def bytes (text : String) : Bytes := text.toList.map (fun ch => UInt8.ofNat ch.toNat)

/-- A child is shut down, and its successor has become ready. -/
def succeeded : List ProcessInput :=
  [.ensureReady,.sendInitialize,.data 0 (bytes "one\n"),.connected,.shutdown,
    .ensureReady,.sendInitialize,.data 1 (bytes "two\n"),.connected,.call (.sendRequest "turn/start")]

def after (is : List ProcessInput) : ProcessBridge := ((processes parse).exec [] {} is).2

end Sample

/-- The end of the first child, delivered late, drops the second one and rejects its
request; the rest of its output goes into the buffer of the second. -/
theorem succeeded_touched :
    (Sample.after Sample.succeeded).fields = {
      child := some ⟨1,false,true⟩
      ready := true
      pending := OrdMap.empty.set (.num "3") "turn/start"
      pendingApprovals := OrdMap.empty
      stdoutBuffer := []
      stdoutDecoder := {} } ∧
    (Sample.after (Sample.succeeded ++ [.exit 0])).fields = {
      child := none
      ready := false
      pending := OrdMap.empty
      pendingApprovals := OrdMap.empty
      stdoutBuffer := []
      stdoutDecoder := {} } ∧
    (Sample.after (Sample.succeeded ++ [.data 0 (Sample.bytes "half a line")])).stdoutBuffer =
      ofString "half a line" ∧
    ¬ (∀ is, Untouched ((processes Sample.parse).exec [] {} is).1) := by
  refine ⟨by decide,by decide,by decide,?_⟩
  intro h
  have hlate := h (Sample.succeeded ++ [.exit 0])
  revert hlate
  decide

end CodeHarbor.Bridge
