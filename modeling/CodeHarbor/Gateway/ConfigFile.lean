import CodeHarbor.Gateway.EventFile
import CodeHarbor.Lib.OrdMap
set_option autoImplicit false

namespace CodeHarbor.Gateway.ConfigFile
open Lib Lib.Js EventFile

/-! The config file: the two readers, the writer, and what a rewriting of the file keeps. -/

/-- What `.` does not match. -/
def isTerminator (u : UInt16) : Bool := u = 0x0a || u = 0x0d || u = 0x2028 || u = 0x2029

def isLetter (u : UInt16) : Bool :=
  (0x41 ≤ u.toNat && u.toNat ≤ 0x5a) || (0x61 ≤ u.toNat && u.toNat ≤ 0x7a) || u = 0x5f

def isWord (u : UInt16) : Bool := isLetter u || (0x30 ≤ u.toNat && u.toNat ≤ 0x39)

/-- `['"]`. -/
def isQuote (u : UInt16) : Bool := u = 0x22 || u = 0x27

/-- `/^([A-Za-z_][A-Za-z0-9_]*)=(.*)$/.exec(line)`, the two groups. -/
def matchLine (line : JsText) : Option (JsText × JsText) :=
  let key := line.takeWhile isWord
  match line.dropWhile isWord with
  | [] => none
  | u :: rawValue =>
    if u = 0x3d ∧ key.head?.any isLetter ∧ rawValue.all fun v => !isTerminator v then some (key,rawValue)
    else none

def openQuote : JsText → JsText
  | [] => []
  | u :: rest => if isQuote u then rest else u :: rest

/-- `rawValue.replace(/^['"]|['"]$/g, "")`. -/
def unquote (rawValue : JsText) : JsText := (openQuote (openQuote rawValue).reverse).reverse

/-- `env[key] = value` on an object: its prototype is no place for a text. -/
def assign (env : OrdMap JsText JsText) (key value : JsText) : OrdMap JsText JsText :=
  if key = ofString "__proto__" then env else env.set key value

def readEnvFile (text : JsText) : OrdMap JsText JsText :=
  (splitLines text).foldl (fun env line =>
    match matchLine (trim line) with
    | none => env
    | some (key,rawValue) => assign env key (unquote rawValue)) OrdMap.empty

/-- What `process.env` has from `Object.prototype`. -/
def inherited : List JsText :=
  ["constructor", "__defineGetter__", "__defineSetter__", "hasOwnProperty", "__lookupGetter__",
    "__lookupSetter__", "isPrototypeOf", "propertyIsEnumerable", "toString", "valueOf", "__proto__",
    "toLocaleString"].map ofString

abbrev ProcessEnv : Type := JsText → Option JsText

/-- `process.env[key] !== undefined`. -/
def ProcessEnv.defines (env : ProcessEnv) (key : JsText) : Bool := (env key).isSome || inherited.contains key

def loadDotenv (env : ProcessEnv) (text : JsText) : ProcessEnv :=
  (splitLines text).foldl (fun env line =>
    let trimmed := trim line
    if trimmed = [] ∨ trimmed.head? = some 0x23 then env
    else
      match matchLine trimmed with
      | none => env
      | some (key,rawValue) =>
        if ProcessEnv.defines env key then env else fun k => if k = key then some (unquote rawValue) else env k) env

def order : List JsText :=
  ["HOST", "PORT", "PUBLIC_ORIGIN", "ADMIN_TOKEN", "SESSION_SECRET", "CODEX_BIN", "CODEX_HOME",
    "CODEX_APP_SERVER_PORT", "SESSION_TTL_HOURS", "APP_UPDATE_VERSION_CODE", "APP_UPDATE_VERSION_NAME",
    "APP_UPDATE_NOTES", "APP_UPDATE_APK_PATH", "APP_UPDATE_PUBLIC_DOWNLOAD", "RELAY_URL", "RELAY_ORIGIN",
    "RELAY_ACCOUNT_TOKEN", "RELAY_ACCOUNT_USERNAME", "RELAY_ACCOUNT_PASSWORD", "RELAY_SERVER_TOKEN",
    "RELAY_DEVICE_NAME"].map ofString

local instance : LawfulBEq JsText := inferInstance

def ordered (env : OrdMap JsText JsText) : List (JsText × JsText) :=
  let seen := order.filter env.has
  seen.filterMap (fun key => (env.get key).map (Prod.mk key)) ++ env.entries.filter fun e => e.1 ∉ seen

def line (e : JsText × JsText) : JsText := e.1 ++ 0x3d :: e.2

def writeEnvFile (env : OrdMap JsText JsText) : JsText :=
  List.intercalate [0x0a] ((ordered env).map line) ++ [0x0a]

/-- What `reconcileConfig` asks of the machine. -/
structure Host where
  existsSync : JsText → Bool
  isReadable : JsText → Bool
  commandExists : JsText → Bool
  isLocalOrigin : JsText → Bool
  isStaleLanOrigin : JsText → Bool
  /-- `path.join(home, "state_5.sqlite")`. -/
  stateFile : JsText → JsText
  /-- `Number(port)` as a template writes it. -/
  number : JsText → JsText
  detectCodexBin : JsText
  detectCodexHome : JsText
  firstLanAddress : JsText
  packageApkPath : JsText

/-- `!env[key]`, or the value. -/
def missing (env : OrdMap JsText JsText) (key : String) (bad : JsText → Bool) : Bool :=
  match env.get (ofString key) with
  | none => true
  | some value => value = [] || bad value

def setIf (condition : Bool) (key : String) (value : JsText) (updates : OrdMap JsText JsText) :
    OrdMap JsText JsText :=
  if condition then updates.set (ofString key) value else updates

def reconcileUpdates (host : Host) (env : OrdMap JsText JsText) : OrdMap JsText JsText :=
  let currentPort := host.number ((env.get (ofString "PORT")).getD (ofString "8787"))
  let officialRelayMode := env.get (ofString "RELAY_URL") = some (ofString "https://code.pixlnan.com")
  let localOrigin := ofString "http://127.0.0.1:" ++ currentPort
  let updates := setIf (missing env "CODEX_BIN" fun bin => bin = ofString "codex" || !host.commandExists bin)
    "CODEX_BIN" host.detectCodexBin OrdMap.empty
  let updates := setIf (missing env "CODEX_HOME" fun home => !host.existsSync (host.stateFile home))
    "CODEX_HOME" host.detectCodexHome updates
  let updates :=
    if officialRelayMode then
      setIf (env.get (ofString "PUBLIC_ORIGIN") ≠ some localOrigin) "PUBLIC_ORIGIN" localOrigin updates
    else
      setIf (missing env "PUBLIC_ORIGIN" fun origin => host.isLocalOrigin origin || host.isStaleLanOrigin origin)
        "PUBLIC_ORIGIN" (ofString "http://" ++ host.firstLanAddress ++ ofString ":" ++ currentPort) updates
  setIf (host.existsSync host.packageApkPath && missing env "APP_UPDATE_APK_PATH" fun apk => !host.isReadable apk)
    "APP_UPDATE_APK_PATH" host.packageApkPath updates

/-- `{ ...env, ...updates }`. -/
def spread (env updates : OrdMap JsText JsText) : OrdMap JsText JsText :=
  updates.entries.foldl (fun env e => env.set e.1 e.2) env

def reconcileConfig (host : Host) (text : JsText) : JsText :=
  let env := readEnvFile text
  let updates := reconcileUpdates host env
  if updates.entries = [] then text else writeEnvFile (spread env updates)

/-- What a rewriting keeps: of what was loaded from the old text, all but the updates is loaded from
the new one. A variable that the process itself defines is not loaded from either. -/
structure Preserved (env : ProcessEnv) (updates : OrdMap JsText JsText) (old new : JsText) : Prop where
  others : ∀ key, updates.get key = none → loadDotenv env new key = loadDotenv env old key
  updated : ∀ key value, updates.get key = some value →
    loadDotenv env new key = if env.defines key then env key else some value
  nothing_more : ∀ key, loadDotenv env new key ≠ none →
    loadDotenv env old key ≠ none ∨ updates.get key ≠ none

section Reading

def define (line : JsText) : Option (JsText × JsText) :=
  (matchLine (trim line)).map fun m => (m.1,unquote m.2)

def definitions (text : JsText) : List (JsText × JsText) := (splitLines text).filterMap define

def trimEnd (s : JsText) : JsText := (s.reverse.dropWhile isSpace).reverse

/-- What is read of a value that was written without quotes. -/
def reread (value : JsText) : JsText := unquote (trimEnd value)

def SingleLine (value : JsText) : Prop := ∀ u ∈ value, isTerminator u = false

/-- No quote at either end and no space at the end. -/
def Plain (value : JsText) : Prop :=
  (∀ u ∈ value.head?, isQuote u = false) ∧ ∀ u ∈ value.getLast?, isQuote u = false ∧ isSpace u = false

structure IsKey (key : JsText) : Prop where
  head : ∃ u rest, key = u :: rest ∧ isLetter u = true
  word : ∀ u ∈ key, isWord u = true

theorem isSpace_of_isWord {u : UInt16} (h : isWord u = true) : isSpace u = false := by
  simp only [isWord,isLetter,Bool.or_eq_true,Bool.and_eq_true,decide_eq_true_eq] at h
  have range : 0x30 ≤ u.toNat ∧ u.toNat ≤ 0x7a := by
    rcases h with ((h | h) | h) | h
    · omega
    · omega
    · subst h
      decide
    · omega
  simp only [isSpace,Bool.or_eq_false_iff,Bool.and_eq_false_iff,beq_eq_false_iff_ne,decide_eq_false_iff_not]
  omega

theorem trimEnd_snoc {u : UInt16} (h : isSpace u = true) (s : JsText) : trimEnd (s ++ [u]) = trimEnd s := by
  rw [trimEnd,List.reverse_append,List.reverse_singleton,List.singleton_append,List.dropWhile_cons,if_pos h,trimEnd]

theorem trim_snoc {u : UInt16} (h : isSpace u = true) (s : JsText) : trim (s ++ [u]) = trim s := by
  rw [trim,List.dropWhile_append]
  split_ifs with blank
  · rw [List.isEmpty_iff] at blank
    rw [trim,blank,List.dropWhile_cons,if_pos h]
    rfl
  · exact trimEnd_snoc h _

theorem trim_of_head {u : UInt16} (h : isSpace u = false) (s : JsText) : trim (u :: s) = trimEnd (u :: s) := by
  rw [trim,List.dropWhile_cons,if_neg (by simp [h]),trimEnd]

theorem trimEnd_append {u : UInt16} (h : isSpace u = false) (front s : JsText) :
    trimEnd (front ++ u :: s) = front ++ u :: trimEnd s := by
  rw [trimEnd,List.reverse_append,List.reverse_cons,List.append_assoc,List.dropWhile_append]
  split_ifs with blank
  · rw [trimEnd,List.isEmpty_iff.1 blank,List.singleton_append,List.dropWhile_cons,if_neg (by simp [h])]
    simp
  · simp [trimEnd]

theorem mem_trimEnd {u : UInt16} {s : JsText} (h : u ∈ trimEnd s) : u ∈ s :=
  List.mem_reverse.1 ((List.dropWhile_sublist _).mem (List.mem_reverse.1 h))

theorem mem_openQuote {u : UInt16} {s : JsText} (h : u ∈ openQuote s) : u ∈ s := by
  cases s with
  | nil => exact h
  | cons v s =>
    rw [openQuote] at h
    split_ifs at h
    · exact List.mem_cons_of_mem _ h
    · exact h

theorem mem_unquote {u : UInt16} {s : JsText} (h : u ∈ unquote s) : u ∈ s :=
  mem_openQuote (List.mem_reverse.1 (mem_openQuote (List.mem_reverse.1 h)))

theorem length_openQuote (s : JsText) :
    (openQuote s).length ≤ s.length ∧ ((openQuote s).length = s.length → ∀ u ∈ s.head?, isQuote u = false) := by
  cases s with
  | nil => simp [openQuote]
  | cons v s =>
    rw [openQuote]
    split_ifs with h
    · simp
    · simpa using h

theorem openQuote_of_head {s : JsText} (h : ∀ u ∈ s.head?, isQuote u = false) : openQuote s = s := by
  cases s with
  | nil => rfl
  | cons v s => rw [openQuote,if_neg (by simpa using h v rfl)]

theorem reread_eq_iff (value : JsText) : reread value = value ↔ Plain value := by
  constructor
  · intro h
    have whole : (reread value).length = value.length := congrArg List.length h
    have ends := length_openQuote (openQuote (trimEnd value)).reverse
    have starts := length_openQuote (trimEnd value)
    have spaces := List.length_dropWhile_le isSpace value.reverse
    simp only [reread,unquote,List.length_reverse] at whole ends
    have solid : (trimEnd value).length = value.length := by
      simp only [trimEnd,List.length_reverse] at starts whole ends spaces ⊢
      omega
    have kept : trimEnd value = value := by
      have same := (List.dropWhile_sublist (p := isSpace) (l := value.reverse)).eq_of_length (by
        simpa [trimEnd] using solid)
      rw [trimEnd,same,List.reverse_reverse]
    rw [kept] at starts ends whole
    have first := starts.2 (by omega)
    rw [openQuote_of_head first] at ends whole
    refine ⟨first,fun u last => ⟨ends.2 (by omega) u (by rwa [List.head?_reverse]),?_⟩⟩
    rw [trimEnd] at kept
    by_contra space
    obtain ⟨front,rfl⟩ := List.getLast?_eq_some_iff.1 last
    have short := List.length_dropWhile_le isSpace front.reverse
    have := congrArg List.length kept
    simp [Bool.eq_true_of_not_eq_false space] at this
    simp only [List.length_reverse] at short
    omega
  · rintro ⟨first,last⟩
    have kept : trimEnd value = value := by
      rcases List.eq_nil_or_concat value with rfl | ⟨front,u,rfl⟩
      · rfl
      · rw [List.concat_eq_append] at last ⊢
        rw [trimEnd_append (last u (by simp)).2]
        rfl
    rw [reread,unquote,kept,openQuote_of_head first,openQuote_of_head,List.reverse_reverse]
    intro u mem
    rw [List.head?_reverse] at mem
    exact (last u mem).1

end Reading

section Lines

theorem matchLine_eq_some {line key rawValue : JsText} (h : matchLine line = some (key,rawValue)) :
    IsKey key ∧ SingleLine rawValue ∧ line = key ++ 0x3d :: rawValue := by
  have parts := List.takeWhile_append_dropWhile (p := isWord) (l := line)
  unfold matchLine at h
  cases rest : line.dropWhile isWord with
  | nil => simp [rest] at h
  | cons u raw =>
    simp only [rest] at h
    split_ifs at h with good
    obtain ⟨rfl,letter,single⟩ := good
    cases h
    rw [rest] at parts
    refine ⟨⟨?_,fun v mem => List.mem_takeWhile_imp mem⟩,fun v mem => ?_,parts.symm⟩
    · cases name : line.takeWhile isWord with
      | nil => simp [name] at letter
      | cons v rest => exact ⟨v,rest,rfl,by simpa [name] using letter⟩
    · simpa using List.all_eq_true.1 single v mem

theorem matchLine_line {key : JsText} (h : IsKey key) (rawValue : JsText) :
    matchLine (key ++ 0x3d :: rawValue) =
      if rawValue.all fun v => !isTerminator v then some (key,rawValue) else none := by
  obtain ⟨v,rest,rfl,letter⟩ := h.head
  have stop : isWord 0x3d = false := by decide
  have name : (v :: rest ++ 0x3d :: rawValue).takeWhile isWord = v :: rest := by
    rw [List.takeWhile_append_of_pos h.word,List.takeWhile_cons,stop]
    simp
  have behind : (v :: rest ++ 0x3d :: rawValue).dropWhile isWord = 0x3d :: rawValue := by
    rw [List.dropWhile_append_of_pos h.word,List.dropWhile_cons,stop]
    rfl
  simp only [matchLine,name,behind]
  simp [letter]

theorem define_eq_some {line key value : JsText} (h : define line = some (key,value)) :
    IsKey key ∧ SingleLine value := by
  obtain ⟨⟨k,raw⟩,found,same⟩ := Option.map_eq_some_iff.1 h
  cases same
  obtain ⟨isKey,single,-⟩ := matchLine_eq_some found
  exact ⟨isKey,fun u mem => single u (mem_unquote mem)⟩

theorem mem_definitions {text key value : JsText} (h : (key,value) ∈ definitions text) :
    IsKey key ∧ SingleLine value := by
  obtain ⟨line,-,found⟩ := List.mem_filterMap.1 h
  exact define_eq_some found

theorem define_line {key : JsText} (h : IsKey key) (value : JsText) (found : JsText × JsText) :
    define (line (key,value)) = some found ↔ SingleLine (trimEnd value) ∧ found = (key,reread value) := by
  have trimmed : trim (line (key,value)) = key ++ 0x3d :: trimEnd value := by
    obtain ⟨u,rest,rfl,letter⟩ := h.head
    rw [line,List.cons_append,trim_of_head (isSpace_of_isWord (h.word u List.mem_cons_self)),← List.cons_append,
      trimEnd_append (by decide)]
  rw [define,trimmed,matchLine_line h]
  have single_iff : ((trimEnd value).all fun v => !isTerminator v) = true ↔ SingleLine (trimEnd value) := by
    simp [SingleLine]
  rw [← single_iff]
  split_ifs with single <;> simp [single,reread,eq_comm]

theorem define_return (line : JsText) : define (line ++ [0x0d]) = define line := by
  rw [define,trim_snoc (by decide),define]

theorem splitLines_feed (text rest : JsText) : ∃ whole last ended,
    splitLines text = whole ++ [last] ∧ splitLines (text ++ 0x0a :: rest) = whole ++ ended :: splitLines rest ∧
      (last = ended ∨ last = ended ++ [0x0d]) := by
  induction text with
  | nil => exact ⟨[],[],[],rfl,rfl,.inl rfl⟩
  | cons u text ih =>
    obtain ⟨whole,last,ended,before,behind,same⟩ := ih
    rw [List.cons_append,splitLines,splitLines,before,behind]
    cases text with
    | nil =>
      obtain ⟨rfl,rfl⟩ : whole = [] ∧ last = [] := by
        cases whole <;> simp_all [splitLines]
      obtain rfl : ended = [] := by
        rcases same with same | same
        · exact same.symm
        · simp at same
      by_cases feed : u = 0x0a
      · rw [if_pos feed,if_pos feed]
        exact ⟨[[]],[],[],rfl,rfl,.inl rfl⟩
      · rw [if_neg feed,if_neg feed]
        by_cases return_ : u = 0x0d
        · refine ⟨[],[u],[],?_,?_,.inr (by rw [return_]; rfl)⟩
          · simp
          · simp [return_]
        · exact ⟨[],[u],[u],by simp,by simp [return_],.inl rfl⟩
    | cons v text =>
      have head : (v :: text ++ 0x0a :: rest).head? = (v :: text).head? := rfl
      rw [head]
      split_ifs
      · exact ⟨[] :: whole,last,ended,rfl,rfl,same⟩
      · exact ⟨whole,last,ended,rfl,rfl,same⟩
      · cases whole with
        | nil =>
          refine ⟨[],u :: last,u :: ended,rfl,rfl,?_⟩
          rcases same with rfl | rfl
          · exact .inl rfl
          · exact .inr rfl
        | cons first whole => exact ⟨(u :: first) :: whole,last,ended,rfl,rfl,same⟩

theorem definitions_feed (text rest : JsText) :
    definitions (text ++ 0x0a :: rest) = definitions text ++ definitions rest := by
  obtain ⟨whole,last,ended,before,behind,same⟩ := splitLines_feed text rest
  have alike : define last = define ended := by
    rcases same with rfl | rfl
    · rfl
    · exact define_return ended
  rw [definitions,definitions,definitions,before,behind,List.filterMap_append,List.filterMap_append,
    List.append_assoc,List.filterMap_cons,List.filterMap_cons,alike]
  cases define ended <;> rfl

theorem splitLines_single {text : JsText} (h : 0x0a ∉ text) : splitLines text = [text] := by
  induction text with
  | nil => rfl
  | cons u text ih =>
    rw [List.mem_cons,not_or] at h
    have next : text.head? ≠ some 0x0a := fun feed => h.2 (List.mem_of_head? feed)
    rw [splitLines,if_neg (Ne.symm h.1),if_neg fun both => next both.2,ih h.2]

theorem definitions_single {text : JsText} (h : 0x0a ∉ text) : definitions text = (define text).toList := by
  rw [definitions,splitLines_single h]
  cases found : define text <;> simp [found]

theorem definitions_written (lines : List JsText) :
    definitions (List.intercalate [0x0a] lines ++ [0x0a]) = lines.flatMap definitions := by
  have nothing : definitions [] = [] := rfl
  induction lines with
  | nil => rfl
  | cons first lines ih =>
    cases lines with
    | nil => simp [definitions_feed,nothing]
    | cons second lines =>
      rw [List.intercalate_cons_cons,List.append_assoc,List.append_assoc,List.singleton_append,definitions_feed,ih]
      rfl

end Lines

section Readers

theorem matchLine_comment {trimmed : JsText} (h : trimmed = [] ∨ trimmed.head? = some 0x23) :
    matchLine trimmed = none := by
  cases found : matchLine trimmed with
  | none => rfl
  | some m =>
    obtain ⟨⟨⟨u,rest,name,letter⟩,-⟩,-,rfl⟩ := matchLine_eq_some found
    rw [name] at h
    rcases h with blank | comment
    · simp at blank
    · obtain rfl : u = 0x23 := by simpa using comment
      exact absurd letter (by decide)

def load (env : ProcessEnv) (e : JsText × JsText) : ProcessEnv :=
  if env.defines e.1 then env else fun k => if k = e.1 then some e.2 else env k

theorem loadDotenv_foldl (env : ProcessEnv) (text : JsText) :
    loadDotenv env text = (definitions text).foldl load env := by
  rw [loadDotenv,definitions,List.foldl_filterMap]
  congr 1
  funext env line
  dsimp only
  split_ifs with comment
  · rw [define,matchLine_comment comment]
    rfl
  · rw [define]
    cases matchLine (trim line) <;> rfl

theorem loadDotenv_eq (env : ProcessEnv) (text key : JsText) : loadDotenv env text key =
    if env.defines key then env key else (definitions text).lookup key := by
  rw [loadDotenv_foldl]
  induction definitions text generalizing env with
  | nil =>
    rw [List.foldl_nil,List.lookup_nil]
    split_ifs with own
    · rfl
    · simp only [ProcessEnv.defines,Bool.or_eq_true,not_or,Option.not_isSome_iff_eq_none] at own
      exact own.1
  | cons e es ih =>
    obtain ⟨k,v⟩ := e
    rw [List.foldl_cons,ih,load]
    by_cases same : key = k
    · subst same
      rw [List.lookup_cons_self]
      split_ifs with own set
      · rfl
      · simp
      · simp [ProcessEnv.defines] at set
    · have other : (key == k) = false := by simpa using same
      rw [List.lookup_cons,other]
      split_ifs with set own own own
      all_goals simp_all [ProcessEnv.defines]

theorem get_foldl_assign (es : List (JsText × JsText)) (env : OrdMap JsText JsText) {key : JsText}
    (h : key ≠ ofString "__proto__") :
    (es.foldl (fun env e => assign env e.1 e.2) env).get key = (es.reverse.lookup key).or (env.get key) := by
  induction es generalizing env with
  | nil => rfl
  | cons e es ih =>
    obtain ⟨k,v⟩ := e
    rw [List.foldl_cons,ih,List.reverse_cons,List.lookup_append,Option.or_assoc]
    congr 1
    rw [assign]
    by_cases same : key = k
    · subst same
      rw [if_neg h,OrdMap.get_set,if_pos rfl,List.lookup_cons_self]
      rfl
    · have other : (key == k) = false := by simpa using same
      rw [List.lookup_cons,other]
      split_ifs
      · rfl
      · rw [OrdMap.get_set,if_neg same]
        rfl

theorem readEnvFile_foldl (text : JsText) :
    readEnvFile text = (definitions text).foldl (fun env e => assign env e.1 e.2) OrdMap.empty := by
  rw [readEnvFile,definitions,List.foldl_filterMap]
  congr 1
  funext env line
  rw [define]
  cases matchLine (trim line) <;> rfl

theorem get_readEnvFile (text : JsText) {key : JsText} (h : key ≠ ofString "__proto__") :
    (readEnvFile text).get key = (definitions text).reverse.lookup key := by
  rw [readEnvFile_foldl,get_foldl_assign _ _ h]
  simp

theorem mem_of_get_readEnvFile {text key value : JsText} (h : (readEnvFile text).get key = some value) :
    (key,value) ∈ definitions text := by
  have from_lines : ∀ (es : List (JsText × JsText)) (env : OrdMap JsText JsText),
      (es.foldl (fun env e => assign env e.1 e.2) env).get key = some value →
        (key,value) ∈ es ∨ env.get key = some value := by
    intro es
    clear h
    induction es with
    | nil => exact fun env found => .inr found
    | cons e es ih =>
      intro env found
      rcases ih _ found with mem | kept
      · exact .inl (List.mem_cons_of_mem _ mem)
      · dsimp only [assign] at kept
        split_ifs at kept
        · exact .inr kept
        · rw [OrdMap.get_set] at kept
          split_ifs at kept with same
          · cases kept
            subst same
            exact .inl List.mem_cons_self
          · exact .inr kept
  rw [readEnvFile_foldl] at h
  simpa using from_lines _ _ h

end Readers

section Writer

theorem get_cons (k v : JsText) (es : List (JsText × JsText)) (nodup : (((k,v) :: es).map Prod.fst).Nodup)
    (key : JsText) : (OrdMap.mk ((k,v) :: es) nodup).get key =
      if key = k then some v else (OrdMap.mk es (List.nodup_cons.1 nodup).2).get key := by
  apply Option.ext
  intro w
  rw [OrdMap.get_eq_some]
  split_ifs with same
  · subst same
    have once : (key,w) ∉ es := fun mem => (List.nodup_cons.1 nodup).1 (List.mem_map.2 ⟨_,mem,rfl⟩)
    simp [once,eq_comm]
  · simp [OrdMap.get_eq_some,same]

theorem get_spread (env updates : OrdMap JsText JsText) (key : JsText) :
    (spread env updates).get key = (updates.get key).or (env.get key) := by
  obtain ⟨es,nodup⟩ := updates
  rw [spread]
  dsimp only
  induction es generalizing env with
  | nil => rfl
  | cons e es ih =>
    obtain ⟨k,v⟩ := e
    rw [List.foldl_cons,ih _ (List.nodup_cons.1 nodup).2,OrdMap.get_set,get_cons]
    split_ifs with same
    · subst same
      rw [OrdMap.get_eq_none.2 (List.nodup_cons.1 nodup).1]
      rfl
    · rfl

theorem mem_ordered (env : OrdMap JsText JsText) (key value : JsText) :
    (key,value) ∈ ordered env ↔ env.get key = some value := by
  simp only [ordered,List.mem_append,List.mem_filterMap,List.mem_filter,Option.map_eq_some_iff,Prod.mk.injEq,
    decide_eq_true_eq,not_and,Bool.not_eq_true]
  constructor
  · rintro (⟨k,-,v,found,rfl,rfl⟩ | ⟨mem,-⟩)
    · exact found
    · exact OrdMap.get_eq_some.2 mem
  · intro found
    by_cases mem : key ∈ order
    · exact .inl ⟨key,⟨mem,by simp [OrdMap.has,found]⟩,value,found,rfl,rfl⟩
    · exact .inr ⟨OrdMap.get_eq_some.1 found,fun listed => absurd listed mem⟩

theorem lookup_iff_mem {es : List (JsText × JsText)} {key value : JsText}
    (once : ∀ v w, (key,v) ∈ es → (key,w) ∈ es → v = w) : es.lookup key = some value ↔ (key,value) ∈ es := by
  constructor
  · intro h
    obtain ⟨front,behind,rfl,-⟩ := List.lookup_eq_some_iff.1 h
    simp
  · intro mem
    cases found : es.lookup key with
    | none => simpa using List.lookup_eq_none_iff.1 found _ mem
    | some v =>
      obtain ⟨front,behind,rfl,-⟩ := List.lookup_eq_some_iff.1 found
      rw [once v value (by simp) mem]

theorem lookup_written {env : OrdMap JsText JsText}
    (good : ∀ key value, env.get key = some value → IsKey key ∧ 0x0a ∉ value) (key value : JsText) :
    (definitions (writeEnvFile env)).lookup key = some value ↔
      ∃ written, env.get key = some written ∧ SingleLine (trimEnd written) ∧ value = reread written := by
  have mem_iff : ∀ v, (key,v) ∈ definitions (writeEnvFile env) ↔
      ∃ written, env.get key = some written ∧ SingleLine (trimEnd written) ∧ v = reread written := by
    intro v
    have read : ∀ k w, env.get k = some w → ((key,v) ∈ definitions (line (k,w)) ↔
        SingleLine (trimEnd w) ∧ (key,v) = (k,reread w)) := by
      intro k w found
      obtain ⟨isKey,feed⟩ := good k w found
      have single : 0x0a ∉ line (k,w) := by
        have word : 0x0a ∉ k := fun mem => absurd (isKey.word _ mem) (by decide)
        simp [line,word,feed]
      rw [definitions_single single,Option.mem_toList,define_line isKey]
    simp only [writeEnvFile,definitions_written,List.mem_flatMap,List.mem_map]
    constructor
    · rintro ⟨-,⟨⟨k,w⟩,mem,rfl⟩,mem_line⟩
      have found := (mem_ordered env k w).1 mem
      obtain ⟨single,same⟩ := (read k w found).1 mem_line
      cases same
      exact ⟨w,found,single,rfl⟩
    · rintro ⟨w,found,single,rfl⟩
      exact ⟨_,⟨(key,w),(mem_ordered env key w).2 found,rfl⟩,(read key w found).2 ⟨single,rfl⟩⟩
  rw [lookup_iff_mem,mem_iff]
  intro v w first second
  obtain ⟨written,found,-,rfl⟩ := (mem_iff v).1 first
  obtain ⟨written',found',-,rfl⟩ := (mem_iff w).1 second
  rw [found] at found'
  cases found'
  rfl

end Writer

section Rewriting

def updatesOf (host : Host) (text : JsText) : OrdMap JsText JsText := reconcileUpdates host (readEnvFile text)

/-- Of every key that is loaded from the file: an updated value reads back as it is, and the value that
was kept, the last one, reads back as the one that was loaded, the first one. -/
structure Survives (env : ProcessEnv) (updates : OrdMap JsText JsText) (text : JsText) : Prop where
  updated : ∀ key value, updates.get key = some value → env.defines key = false →
    SingleLine value ∧ Plain value
  kept : ∀ key, updates.get key = none → env.defines key = false →
    ((definitions text).reverse.lookup key).map reread = (definitions text).lookup key

/-- No updated value that the process environment hides goes on in a second line. -/
def OneLineHidden (env : ProcessEnv) (updates : OrdMap JsText JsText) : Prop :=
  ∀ key value, updates.get key = some value → env.defines key = true → 0x0a ∉ value

theorem IsKey.of_units {key : JsText} (h : (key.head?.any isLetter && key.all isWord) = true) : IsKey key := by
  rw [Bool.and_eq_true,List.all_eq_true] at h
  refine ⟨?_,h.2⟩
  cases key with
  | nil => simp at h
  | cons u rest => exact ⟨u,rest,rfl,by simpa using h.1⟩

def Keyed (updates : OrdMap JsText JsText) : Prop := ∀ key value, updates.get key = some value → IsKey key

theorem Keyed.setIf {updates : OrdMap JsText JsText} (h : Keyed updates) {name : String}
    (named : IsKey (ofString name)) (condition : Bool) (value : JsText) :
    Keyed (setIf condition name value updates) := by
  intro k v found
  rw [ConfigFile.setIf] at found
  split_ifs at found
  · rw [OrdMap.get_set] at found
    split_ifs at found with same
    · rwa [same]
    · exact h k v found
  · exact h k v found

theorem keyed_updates (host : Host) (text : JsText) : Keyed (updatesOf host text) := by
  have nothing : Keyed OrdMap.empty := by
    intro key value h
    cases h
  have named : IsKey (ofString "CODEX_BIN") := .of_units (by decide)
  unfold updatesOf reconcileUpdates
  dsimp only
  apply Keyed.setIf _ (.of_units (by decide))
  split_ifs
  · exact ((nothing.setIf named _ _).setIf (.of_units (by decide)) _ _).setIf (.of_units (by decide)) _ _
  · exact ((nothing.setIf named _ _).setIf (.of_units (by decide)) _ _).setIf (.of_units (by decide)) _ _

def mergedOf (host : Host) (text : JsText) : OrdMap JsText JsText :=
  spread (readEnvFile text) (updatesOf host text)

theorem SingleLine.feed {value : JsText} (h : SingleLine value) : 0x0a ∉ value :=
  fun mem => absurd (h _ mem) (by decide)

section
variable {host : Host} {env : ProcessEnv} {text : JsText}

theorem merged_good (feed : ∀ key value, (updatesOf host text).get key = some value → 0x0a ∉ value) :
    ∀ key value, (mergedOf host text).get key = some value → IsKey key ∧ 0x0a ∉ value := by
  intro key value found
  rw [mergedOf,get_spread] at found
  cases update : (updatesOf host text).get key with
  | some v =>
    rw [update] at found
    cases found
    exact ⟨keyed_updates host text _ _ update,feed _ _ update⟩
  | none =>
    rw [update] at found
    obtain ⟨isKey,single⟩ := mem_definitions (mem_of_get_readEnvFile found)
    exact ⟨isKey,single.feed⟩

theorem lookup_updated (feed : ∀ key value, (updatesOf host text).get key = some value → 0x0a ∉ value)
    {key update : JsText} (h : (updatesOf host text).get key = some update) (value : JsText) :
    (definitions (writeEnvFile (mergedOf host text))).lookup key = some value ↔
      SingleLine (trimEnd update) ∧ value = reread update := by
  rw [lookup_written (merged_good feed),mergedOf,get_spread,h]
  simp

theorem lookup_other (feed : ∀ key value, (updatesOf host text).get key = some value → 0x0a ∉ value)
    {key : JsText} (h : (updatesOf host text).get key = none) (free : env.defines key = false) :
    (definitions (writeEnvFile (mergedOf host text))).lookup key =
      ((definitions text).reverse.lookup key).map reread := by
  have named : key ≠ ofString "__proto__" := by
    rintro rfl
    have own : inherited.contains (ofString "__proto__") = true := by decide
    rw [ProcessEnv.defines,own,Bool.or_true] at free
    cases free
  apply Option.ext
  intro value
  rw [lookup_written (merged_good feed),mergedOf,get_spread,h,Option.none_or,Option.map_eq_some_iff,
    ← get_readEnvFile text named]
  constructor
  · rintro ⟨written,found,-,rfl⟩
    exact ⟨written,found,rfl⟩
  · rintro ⟨written,found,rfl⟩
    have single := (mem_definitions (mem_of_get_readEnvFile found)).2
    exact ⟨written,found,fun u mem => single u (mem_trimEnd mem),rfl⟩

theorem reconcileConfig_eq (changed : (updatesOf host text).entries ≠ []) :
    reconcileConfig host text = writeEnvFile (mergedOf host text) := if_neg changed

theorem Survives.preserved (h : Survives env (updatesOf host text) text)
    (hidden : OneLineHidden env (updatesOf host text)) :
    Preserved env (updatesOf host text) text (writeEnvFile (mergedOf host text)) := by
  have feed : ∀ key value, (updatesOf host text).get key = some value → 0x0a ∉ value := by
    intro key value update
    cases own : env.defines key with
    | true => exact hidden key value update own
    | false => exact (h.updated key value update own).1.feed
  have others : ∀ key, (updatesOf host text).get key = none →
      loadDotenv env (writeEnvFile (mergedOf host text)) key = loadDotenv env text key := by
    intro key update
    rw [loadDotenv_eq,loadDotenv_eq]
    split_ifs with own
    · rfl
    · have free := Bool.eq_false_of_not_eq_true own
      rw [lookup_other feed update free,h.kept key update free]
  refine ⟨others,fun key value update => ?_,fun key loaded => ?_⟩
  · rw [loadDotenv_eq]
    split_ifs with own
    · rfl
    · obtain ⟨single,plain⟩ := h.updated key value update (Bool.eq_false_of_not_eq_true own)
      rw [lookup_updated feed update]
      exact ⟨fun u mem => single u (mem_trimEnd mem),((reread_eq_iff value).2 plain).symm⟩
  · by_cases update : (updatesOf host text).get key = none
    · rw [others key update] at loaded
      exact .inl loaded
    · exact .inr update

theorem Preserved.survives (h : Preserved env (updatesOf host text) text (writeEnvFile (mergedOf host text)))
    (hidden : OneLineHidden env (updatesOf host text)) : Survives env (updatesOf host text) text := by
  have loaded : ∀ key value, (updatesOf host text).get key = some value → env.defines key = false →
      (definitions (writeEnvFile (mergedOf host text))).lookup key = some value := by
    intro key value update free
    have new := h.updated key value update
    rwa [loadDotenv_eq,free] at new
  have single : ∀ key value, (updatesOf host text).get key = some value → env.defines key = false →
      SingleLine value := by
    intro key value update free
    obtain ⟨front,behind,lines,-⟩ := List.lookup_eq_some_iff.1 (loaded key value update free)
    have mem : (key,value) ∈ definitions (writeEnvFile (mergedOf host text)) := by
      rw [lines]
      simp
    exact (mem_definitions mem).2
  have feed : ∀ key value, (updatesOf host text).get key = some value → 0x0a ∉ value := by
    intro key value update
    cases own : env.defines key with
    | true => exact hidden key value update own
    | false => exact (single key value update own).feed
  refine ⟨fun key value update free => ⟨single key value update free,?_⟩,fun key update free => ?_⟩
  · obtain ⟨-,same⟩ := (lookup_updated feed update value).1 (loaded key value update free)
    exact (reread_eq_iff value).1 same.symm
  · have old := h.others key update
    rw [loadDotenv_eq,loadDotenv_eq,free] at old
    rw [← lookup_other feed update free]
    simpa using old

end

/-- When a rewriting keeps the meaning of the config file. -/
theorem reconcileConfig_preserves (host : Host) (env : ProcessEnv) (text : JsText) :
    ((updatesOf host text).entries = [] ∨
        OneLineHidden env (updatesOf host text) ∧ Survives env (updatesOf host text) text →
      Preserved env (updatesOf host text) text (reconcileConfig host text)) ∧
    (Preserved env (updatesOf host text) text (reconcileConfig host text) →
      OneLineHidden env (updatesOf host text) →
      (updatesOf host text).entries = [] ∨ Survives env (updatesOf host text) text) := by
  by_cases unchanged : (updatesOf host text).entries = []
  · have same : reconcileConfig host text = text := if_pos unchanged
    have nothing : ∀ key, (updatesOf host text).get key = none := by
      intro key
      rw [OrdMap.get_eq_none,unchanged]
      simp
    refine ⟨fun _ => ?_,fun _ _ => .inl unchanged⟩
    rw [same]
    refine ⟨fun _ _ => rfl,fun key value update => ?_,fun _ loaded => .inl loaded⟩
    rw [nothing] at update
    cases update
  · rw [reconcileConfig_eq unchanged]
    refine ⟨?_,fun kept hidden => .inr (kept.survives hidden)⟩
    rintro (none | ⟨hidden,survives⟩)
    · exact absurd none unchanged
    · exact survives.preserved hidden

def bareHost : Host where
  existsSync _ := false
  isReadable _ := false
  commandExists _ := false
  isLocalOrigin _ := false
  isStaleLanOrigin _ := false
  stateFile home := home ++ ofString "/state_5.sqlite"
  number port := port
  detectCodexBin := ofString "codex"
  detectCodexHome := ofString "/root/.codex"
  firstLanAddress := ofString "10.0.0.2"
  packageApkPath := ofString "/opt/aCode-latest.apk"

def bareEnv : ProcessEnv := fun _ => none

/-- A password that is not quoted comes back. -/
theorem unquoted_kept : Preserved bareEnv (updatesOf bareHost (ofString "RELAY_ACCOUNT_PASSWORD=it's\n"))
    (ofString "RELAY_ACCOUNT_PASSWORD=it's\n")
    (reconcileConfig bareHost (ofString "RELAY_ACCOUNT_PASSWORD=it's\n")) := by
  have good : ∀ e ∈ (updatesOf bareHost (ofString "RELAY_ACCOUNT_PASSWORD=it's\n")).entries,
      (∀ u ∈ e.2, isTerminator u = false) ∧ reread e.2 = e.2 := by decide
  have defined : definitions (ofString "RELAY_ACCOUNT_PASSWORD=it's\n") =
      [(ofString "RELAY_ACCOUNT_PASSWORD",ofString "it's")] := by decide
  refine (reconcileConfig_preserves _ _ _).1 (.inr ⟨?_,?_,?_⟩)
  · intro key value update _
    exact SingleLine.feed (good _ (OrdMap.get_eq_some.1 update)).1
  · intro key value update _
    obtain ⟨single,same⟩ := good _ (OrdMap.get_eq_some.1 update)
    exact ⟨single,(reread_eq_iff value).1 same⟩
  · intro key _ _
    rw [defined,List.reverse_singleton,List.lookup_cons]
    cases key == ofString "RELAY_ACCOUNT_PASSWORD"
    · rfl
    · exact congrArg some (by decide : reread (ofString "it's") = ofString "it's")

/-- Of a value within two pairs of quotes the second reading takes the inner ones off. -/
theorem quotes_lost : ¬ ∀ (host : Host) (env : ProcessEnv) (text : JsText),
    Preserved env (updatesOf host text) text (reconcileConfig host text) := by
  intro h
  have kept := (h bareHost bareEnv (ofString "RELAY_ACCOUNT_PASSWORD=\"'secret'\"\n")).others
    (ofString "RELAY_ACCOUNT_PASSWORD") (by decide)
  exact absurd kept (by decide)

end Rewriting

end CodeHarbor.Gateway.ConfigFile
