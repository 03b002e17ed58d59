import CodeHarbor.Lib.OrdMap
import CodeHarbor.Lib.Paths
import CodeHarbor.Lib.Utf8
set_option autoImplicit false

namespace CodeHarbor.Gateway.Attachments
open Lib Lib.Js

/-! The files of a turn: their names, and the directory that `storeAttachments` writes to. -/

def maxAttachmentsPerTurn : Nat := 8
def maxAttachmentBytes : Nat := 15*1024*1024
/-- `Math.ceil(maxAttachmentBytes * 4 / 3) + 512`, the quotient being whole. -/
def maxAttachmentBase64Chars : Nat := maxAttachmentBytes*4/3+512

def imageExtensions : List JsText := [".png",".jpg",".jpeg",".webp",".gif",".bmp"].map ofString

def fileExtensions : List JsText :=
  [".txt",".md",".markdown",".json",".yaml",".yml",".csv",".log",".pdf",".doc",".docx",".xls",".xlsx",
    ".ppt",".pptx",".zip",".js",".jsx",".ts",".tsx",".py",".java",".kt",".swift",".go",".rs",".c",".h",
    ".cpp",".hpp",".cs",".php",".rb",".sh",".bash",".zsh",".ps1",".html",".css",".scss",".xml",".toml",
    ".ini",".conf",".env",".gradle",".sql"].map ofString

/-- What is taken from the engine and the process: `normalize("NFKC")`, `toLowerCase` and
the working directory. -/
structure Host where
  nfkc : JsText → JsText
  toLowerCase : JsText → JsText
  cwd : AbsolutePath

structure UploadedAttachment where
  name : JsText
  mimeType : Option JsText := none
  size : Option Rat := none
  dataBase64 : JsText
  deriving DecidableEq, Repr

inductive Kind where
  | image
  | file
  deriving DecidableEq, Repr

structure StoredAttachment where
  id : JsText
  originalName : JsText
  mimeType : JsText
  size : Nat
  kind : Kind
  relativePath : JsText
  absolutePath : AbsolutePath
  deriving DecidableEq, Repr

inductive AttachmentError where
  | tooManyAttachments
  | pathEscape
  | invalidAttachment
  | invalidSize
  | tooLarge
  | unsupportedType
  | io
  deriving DecidableEq, Repr

def AttachmentError.message : AttachmentError → String
  | .tooManyAttachments => "too_many_attachments"
  | .pathEscape => "attachment_path_escape"
  | .invalidAttachment => "invalid_attachment"
  | .invalidSize => "invalid_attachment_size"
  | .tooLarge => "attachment_too_large"
  | .unsupportedType => "unsupported_attachment_type"
  | .io => ""

def dash : UInt16 := 0x2d
def backslash : UInt16 := 0x5c

/-- `[\u0000-\u001f\u007f]`. -/
def isStripped (u : UInt16) : Bool := u.toNat < 0x20 || u.toNat = 0x7f

/-- `replace(/[\\/]/g, "-")` on one unit. -/
def withoutSeparator (u : UInt16) : UInt16 := if u = slash ∨ u = backslash then dash else u

/-- `replace(/\s+/g, " ")`. -/
def collapseSpaces : JsText → JsText
  | [] => []
  | u :: rest =>
    if isSpace u then if rest.head?.any isSpace then collapseSpaces rest else 0x20 :: collapseSpaces rest
    else u :: collapseSpaces rest

def sanitizeAttachmentFileName (host : Host) (fileName : JsText) : JsText :=
  let baseName := basename (if fileName = [] then ofString "attachment" else fileName)
  let cleaned := trim (collapseSpaces
    (((host.nfkc baseName).filter (fun u => !isStripped u)).map withoutSeparator))
  if cleaned = [] ∨ cleaned = [dot] ∨ cleaned = dots then ofString "attachment" else cleaned.take 120

def classifyAttachment (host : Host) (fileName mimeType : JsText) : Except AttachmentError Kind :=
  let extension := host.toLowerCase (extname fileName)
  let normalizedMime := host.toLowerCase mimeType
  if (ofString "image/").isPrefixOf normalizedMime || imageExtensions.contains extension then .ok .image
  else if fileExtensions.contains extension || (ofString "text/").isPrefixOf normalizedMime ||
    normalizedMime = ofString "application/octet-stream" then .ok .file
  else .error .unsupportedType

def sextet (u : UInt16) : Option Nat :=
  let n := u.toNat
  if 0x41 ≤ n ∧ n ≤ 0x5a then some (n-0x41)
  else if 0x61 ≤ n ∧ n ≤ 0x7a then some (n-0x61+26)
  else if 0x30 ≤ n ∧ n ≤ 0x39 then some (n-0x30+52)
  else if n = 0x2b then some 62
  else if n = 0x2f then some 63
  else none

/-- What `Buffer.from(text, "base64")` makes of the sextets. -/
def bytesOf : List Nat → Bytes
  | a :: b :: c :: d :: rest =>
    UInt8.ofNat (a*4+b/16) :: UInt8.ofNat (b%16*16+c/4) :: UInt8.ofNat (c%4*64+d) :: bytesOf rest
  | [a,b,c] => [UInt8.ofNat (a*4+b/16),UInt8.ofNat (b%16*16+c/4)]
  | [a,b] => [UInt8.ofNat (a*4+b/16)]
  | _ => []

def afterComma (value : JsText) : JsText :=
  match value.dropWhile (· ≠ 0x2c) with
  | [] => value
  | _ :: rest => rest

def decodeBase64 (value : JsText) : Except AttachmentError Bytes :=
  let compact := (afterComma value).filter (fun u => !(u = 0x0d || u = 0x0a || u = 0x09 || u = 0x20))
  let data := compact.takeWhile (fun u => (sextet u).isSome)
  let padding := compact.dropWhile (fun u => (sextet u).isSome)
  if compact = [] ∨ compact.length > maxAttachmentBase64Chars ∨ compact.length%4 = 1 ∨
    ¬ (padding.length ≤ 2 ∧ ∀ u ∈ padding, u = 0x3d) then .error .invalidAttachment
  else
    let buffer := bytesOf (data.filterMap sextet)
    if buffer = [] then .error .invalidAttachment else .ok buffer

def ensurePathInside (cwd : AbsolutePath) (parentPath childPath : JsText) : Bool :=
  let relative := relative cwd parentPath childPath
  !(dots.isPrefixOf relative || isAbsolute relative)

/-- A text of `randomUUID`: hexadecimal digits and dashes. -/
structure Uuid where
  text : JsText
  digits : ∀ u ∈ text, u = dash ∨ 0x30 ≤ u.toNat ∧ u.toNat ≤ 0x39 ∨ 0x61 ≤ u.toNat ∧ u.toNat ≤ 0x66
  deriving DecidableEq, Repr

/-- What becomes of a `writeFile`. One that fails leaves the file as it was, or the first
bytes of what was to be written. -/
inductive WriteFate where
  | succeeds
  | fails (left : Option Nat)
  deriving DecidableEq, Repr

structure Item where
  attachment : UploadedAttachment
  uuid : Uuid
  write : WriteFate := .succeeds
  deriving DecidableEq, Repr

def Item.id (item : Item) : JsText := ofString "att_" ++ item.uuid.text.filter (· ≠ dash)

def Item.storedName (host : Host) (item : Item) : JsText :=
  item.id ++ dash :: sanitizeAttachmentFileName host item.attachment.name

def Item.absolutePath (host : Host) (resolvedAttachmentDir : AbsolutePath) (item : Item) : AbsolutePath :=
  resolve host.cwd [resolvedAttachmentDir.text,item.storedName host]

/-- One turn of the loop, up to the `writeFile`: what is to be stored, and its bytes. -/
def prepare (host : Host) (threadId : JsText) (resolvedAttachmentDir : AbsolutePath) (item : Item) :
    Except AttachmentError (StoredAttachment × Bytes) := do
  let attachment := item.attachment
  let originalName := sanitizeAttachmentFileName host attachment.name
  let trimmed := trim (attachment.mimeType.getD [])
  let mimeType := if trimmed = [] then ofString "application/octet-stream" else trimmed
  let buffer ← decodeBase64 attachment.dataBase64
  let size : Rat := attachment.size.getD buffer.length
  if size ≠ buffer.length then .error .invalidSize
  else if buffer.length > maxAttachmentBytes then .error .tooLarge
  else
    let kind ← classifyAttachment host originalName mimeType
    let absolutePath := item.absolutePath host resolvedAttachmentDir
    if ensurePathInside host.cwd resolvedAttachmentDir.text absolutePath.text = false then .error .pathEscape
    else
      .ok ({ id := item.id
             originalName := originalName
             mimeType := mimeType
             size := buffer.length
             kind := kind
             relativePath := join [ofString ".acode",ofString "attachments",threadId,item.storedName host]
             absolutePath := absolutePath },buffer)

abbrev Files := OrdMap AbsolutePath Bytes

def rollback (stored : List StoredAttachment) (files : Files) : Files :=
  stored.foldl (fun files attachment => files.erase attachment.absolutePath) files

def storeItems (host : Host) (threadId : JsText) (resolvedAttachmentDir : AbsolutePath) (files : Files)
    (stored : List StoredAttachment) : List Item → Files × Except AttachmentError (List StoredAttachment)
  | [] => (files,.ok stored)
  | item :: items =>
    match prepare host threadId resolvedAttachmentDir item with
    | .error e => (rollback stored files,.error e)
    | .ok (attachment,buffer) =>
      match item.write with
      | .succeeds =>
        storeItems host threadId resolvedAttachmentDir (files.set attachment.absolutePath buffer)
          (stored ++ [attachment]) items
      | .fails none => (rollback stored files,.error .io)
      | .fails (some n) =>
        (rollback stored (files.set attachment.absolutePath (buffer.take n)),.error .io)

/-- What the file system says of the directories: whether `mkdir` succeeds, and `realpath`,
none when it fails. -/
structure Directories where
  mkdir : Bool
  realpath : JsText → Option AbsolutePath

def storeAttachments (host : Host) (directories : Directories) (files : Files) (cwd threadId : JsText)
    (attachments : List Item) : Files × Except AttachmentError (List StoredAttachment) :=
  if attachments.length > maxAttachmentsPerTurn then (files,.error .tooManyAttachments)
  else if attachments = [] then (files,.ok [])
  else
    let attachmentDir := resolve host.cwd [cwd,ofString ".acode",ofString "attachments",threadId]
    if directories.mkdir = false then (files,.error .io)
    else
      match directories.realpath cwd, directories.realpath attachmentDir.text with
      | some workspaceRoot, some resolvedAttachmentDir =>
        if ensurePathInside host.cwd workspaceRoot.text resolvedAttachmentDir.text = false then
          (files,.error .pathEscape)
        else storeItems host threadId resolvedAttachmentDir files [] attachments
      | _, _ => (files,.error .pathEscape)

def StoredAs (files : Files) (item : Item) (attachment : StoredAttachment) : Prop :=
  ∃ bytes, decodeBase64 item.attachment.dataBase64 = .ok bytes ∧ files.get attachment.absolutePath = some bytes

/-- After an error the files are those from before the call. Otherwise there is one file for
each attachment besides. -/
def AllOrNothing (files : Files) (items : List Item)
    (outcome : Files × Except AttachmentError (List StoredAttachment)) : Prop :=
  match outcome.2 with
  | .error _ => ∀ path, outcome.1.get path = files.get path
  | .ok stored => List.Forall₂ (StoredAs outcome.1) items stored ∧ (stored.map (·.absolutePath)).Nodup ∧
      ∀ path, path ∉ stored.map (·.absolutePath) → outcome.1.get path = files.get path

/-- If the loop comes to a write that fails, this write leaves no file. -/
def CleanFailure (host : Host) (threadId : JsText) (directory : AbsolutePath) : List Item → Prop
  | [] => True
  | item :: items =>
    match prepare host threadId directory item with
    | .error _ => True
    | .ok _ =>
      match item.write with
      | .succeeds => CleanFailure host threadId directory items
      | .fails left => left = none

section Names

variable {host : Host} {s t : JsText}

theorem mem_trim {u : UInt16} (h : u ∈ trim s) : u ∈ s := by
  unfold trim at h
  rw [List.mem_reverse] at h
  have inside := (List.dropWhile_sublist _).subset h
  rw [List.mem_reverse] at inside
  exact (List.dropWhile_sublist _).subset inside

theorem mem_collapseSpaces {u : UInt16} (h : u ∈ collapseSpaces s) : u ∈ s ∨ u = 0x20 := by
  induction s with
  | nil => cases h
  | cons v s ih =>
    rw [collapseSpaces] at h
    have later : u ∈ collapseSpaces s → u ∈ v :: s ∨ u = 0x20 := fun mem =>
      (ih mem).imp_left (List.mem_cons_of_mem v)
    split_ifs at h
    · exact later h
    · rcases List.mem_cons.1 h with space | mem
      · exact .inr space
      · exact later mem
    · rcases List.mem_cons.1 h with rfl | mem
      · exact .inl List.mem_cons_self
      · exact later mem

/-- A unit that separates no path and is not stripped. -/
def Harmless (u : UInt16) : Prop := u ≠ slash ∧ u ≠ backslash ∧ isStripped u = false

instance (u : UInt16) : Decidable (Harmless u) := inferInstanceAs (Decidable (_ ∧ _ ∧ _))

theorem cleaned_harmless (text : JsText) :
    ∀ u ∈ trim (collapseSpaces ((text.filter (fun u => !isStripped u)).map withoutSeparator)), Harmless u := by
  intro u mem
  rcases mem_collapseSpaces (mem_trim mem) with mapped | rfl
  · obtain ⟨v,kept,rfl⟩ := List.mem_map.1 mapped
    have not_stripped : isStripped v = false := by simpa using (List.mem_filter.1 kept).2
    unfold withoutSeparator
    split_ifs with separator
    · decide
    · rw [not_or] at separator
      exact ⟨separator.1,separator.2,not_stripped⟩
  · decide

theorem sanitizeAttachmentFileName_harmless (host : Host) (fileName : JsText) :
    ∀ u ∈ sanitizeAttachmentFileName host fileName, Harmless u := by
  intro u mem
  unfold sanitizeAttachmentFileName at mem
  dsimp only at mem
  generalize host.nfkc (basename (if fileName = [] then ofString "attachment" else fileName)) = text at mem
  split_ifs at mem
  · exact (by decide : ∀ u ∈ ofString "attachment", Harmless u) u mem
  · exact cleaned_harmless text u (List.mem_of_mem_take mem)

theorem Uuid.harmless (uuid : Uuid) : ∀ u ∈ uuid.text, Harmless u := by
  intro u mem
  have number : ∀ v : UInt16, u = v → u.toNat = v.toNat := fun v same => by rw [same]
  rcases uuid.digits u mem with rfl | digit | letter
  · decide
  · refine ⟨?_,?_,?_⟩
    · rintro rfl
      exact absurd digit (by decide)
    · rintro rfl
      exact absurd digit (by decide)
    · simp only [isStripped,Bool.or_eq_false_iff,decide_eq_false_iff_not]
      omega
  · refine ⟨?_,?_,?_⟩
    · rintro rfl
      exact absurd letter (by decide)
    · rintro rfl
      exact absurd letter (by decide)
    · simp only [isStripped,Bool.or_eq_false_iff,decide_eq_false_iff_not]
      omega

theorem Item.id_harmless (item : Item) : ∀ u ∈ item.id, Harmless u := by
  intro u mem
  rcases List.mem_append.1 mem with fixed | digit
  · exact (by decide : ∀ u ∈ ofString "att_", Harmless u) u fixed
  · exact item.uuid.harmless u (List.mem_filter.1 digit).1

theorem Item.storedName_harmless (host : Host) (item : Item) : ∀ u ∈ item.storedName host, Harmless u := by
  intro u mem
  rcases List.mem_append.1 mem with id | rest
  · exact item.id_harmless u id
  · rcases List.mem_cons.1 rest with rfl | name
    · decide
    · exact sanitizeAttachmentFileName_harmless host _ u name

theorem Item.storedName_head (host : Host) (item : Item) : ∃ rest, item.storedName host = 0x61 :: rest := by
  have fixed : ofString "att_" = [0x61,0x74,0x74,0x5f] := by decide
  rw [storedName,id,fixed]
  exact ⟨_,rfl⟩

theorem Item.storedName_isName (host : Host) (item : Item) : IsName (item.storedName host) := by
  obtain ⟨rest,head⟩ := item.storedName_head host
  refine ⟨?_,fun mem => (item.storedName_harmless host _ mem).1 rfl,?_,?_⟩
  · rw [head]
    nofun
  · rw [head]
    simp [dot]
  · rw [head]
    simp [dots,dot]

theorem Item.id_eq_takeWhile (host : Host) (item : Item) :
    item.id = (item.storedName host).takeWhile (· ≠ dash) := by
  have none : ∀ u ∈ item.id, decide (u ≠ dash) = true := by
    intro u mem
    rcases List.mem_append.1 mem with fixed | digit
    · exact (by decide : ∀ u ∈ ofString "att_", decide (u ≠ dash) = true) u fixed
    · simpa using (List.mem_filter.1 digit).2
  rw [storedName,List.takeWhile_append_of_pos none,List.takeWhile_cons]
  simp

theorem Item.components_absolutePath (host : Host) (directory : AbsolutePath) (item : Item) :
    components (item.absolutePath host directory).text =
      components directory.text ++ [item.storedName host] :=
  components_resolve_child host.cwd directory (item.storedName_isName host)

theorem Item.id_eq_of_absolutePath (host : Host) {directory directory' : AbsolutePath} {item item' : Item}
    (h : item.absolutePath host directory = item'.absolutePath host directory') : item.id = item'.id := by
  have whole := congrArg (fun path => (components path.text).getLast?) h
  simp only [components_absolutePath,List.getLast?_append,List.getLast?_singleton,Option.some_or,
    Option.some.injEq] at whole
  rw [id_eq_takeWhile host,id_eq_takeWhile host,whole]

theorem Item.ensurePathInside_absolutePath (host : Host) (directory : AbsolutePath) (item : Item) :
    ensurePathInside host.cwd directory.text (item.absolutePath host directory).text = true := by
  have name := item.storedName_isName host
  have below : components directory.text <+: components (item.absolutePath host directory).text := by
    rw [item.components_absolutePath]
    exact List.prefix_append _ _
  have down : relative host.cwd directory.text (item.absolutePath host directory).text =
      item.storedName host := by
    rw [relative_below host.cwd below,item.components_absolutePath,List.drop_left]
    rfl
  obtain ⟨rest,head⟩ := item.storedName_head host
  have inside : dots.isPrefixOf (item.storedName host) = false := by
    rw [head]
    rfl
  have not_root : isAbsolute (item.storedName host) = false := by
    rw [head]
    rfl
  rw [ensurePathInside,down,inside,not_root]
  rfl

end Names

section Storing

variable {host : Host} {threadId : JsText} {directory : AbsolutePath} {files : Files}
  {stored : List StoredAttachment}

theorem prepare_spec {item : Item} {attachment : StoredAttachment} {buffer : Bytes}
    (h : prepare host threadId directory item = .ok (attachment,buffer)) :
    attachment.absolutePath = item.absolutePath host directory ∧
      decodeBase64 item.attachment.dataBase64 = .ok buffer := by
  unfold prepare at h
  cases decoded : decodeBase64 item.attachment.dataBase64 with
  | error e => simp [decoded,bind,Except.bind] at h
  | ok bytes =>
    simp only [decoded,bind,Except.bind] at h
    generalize (if trim (item.attachment.mimeType.getD []) = [] then ofString "application/octet-stream"
      else trim (item.attachment.mimeType.getD [])) = mimeType at h
    cases kind : classifyAttachment host (sanitizeAttachmentFileName host item.attachment.name) mimeType with
    | error e =>
      simp only [kind] at h
      split_ifs at h
    | ok found =>
      simp only [kind] at h
      split_ifs at h
      cases h
      exact ⟨rfl,rfl⟩

theorem get_rollback (stored : List StoredAttachment) (files : Files) (path : AbsolutePath) :
    (rollback stored files).get path =
      if path ∈ stored.map (·.absolutePath) then none else files.get path := by
  induction stored generalizing files with
  | nil => rfl
  | cons attachment stored ih =>
    have step : (rollback (attachment :: stored) files).get path =
        (rollback stored (files.erase attachment.absolutePath)).get path := rfl
    rw [step,ih,OrdMap.get_erase,List.map_cons]
    by_cases same : path = attachment.absolutePath
    · simp [same]
    · simp [same]

/-- The loop, with the items that are done and what it has stored for them. -/
structure Progress (host : Host) (directory : AbsolutePath) (files current : Files) (done : List Item)
    (stored : List StoredAttachment) : Prop where
  each : List.Forall₂ (fun item (attachment : StoredAttachment) =>
    attachment.absolutePath = item.absolutePath host directory ∧ StoredAs current item attachment) done stored
  kept : ∀ path, path ∉ stored.map (·.absolutePath) → current.get path = files.get path

variable {current : Files} {done : List Item}

theorem Progress.paths (h : Progress host directory files current done stored) :
    stored.map (·.absolutePath) = done.map (·.absolutePath host directory) := by
  have each := h.each
  clear h
  induction each with
  | nil => rfl
  | cons one _ ih => rw [List.map_cons,List.map_cons,ih,one.1]

theorem Progress.get_rollback (h : Progress host directory files current done stored)
    (fresh : ∀ item ∈ done, files.get (item.absolutePath host directory) = none) (path : AbsolutePath) :
    (rollback stored current).get path = files.get path := by
  rw [Attachments.get_rollback]
  split_ifs with mem
  · rw [h.paths] at mem
    obtain ⟨item,is_done,rfl⟩ := List.mem_map.1 mem
    exact (fresh item is_done).symm
  · exact h.kept path mem

theorem not_mem_paths {item : Item} (distinct : ((done ++ [item]).map Item.id).Nodup) :
    item.absolutePath host directory ∉ done.map (·.absolutePath host directory) := by
  intro mem
  obtain ⟨other,is_done,same⟩ := List.mem_map.1 mem
  have id_eq := Item.id_eq_of_absolutePath host same
  rw [List.map_append,List.nodup_append] at distinct
  exact distinct.2.2 _ (List.mem_map_of_mem is_done) _ (by simp) id_eq

theorem Progress.snoc (h : Progress host directory files current done stored) {item : Item}
    {attachment : StoredAttachment} {buffer : Bytes}
    (path : attachment.absolutePath = item.absolutePath host directory)
    (decoded : decodeBase64 item.attachment.dataBase64 = .ok buffer)
    (distinct : ((done ++ [item]).map Item.id).Nodup) :
    Progress host directory files (current.set attachment.absolutePath buffer) (done ++ [item])
      (stored ++ [attachment]) := by
  have new : attachment.absolutePath ∉ stored.map (·.absolutePath) := by
    rw [h.paths,path]
    exact not_mem_paths distinct
  constructor
  · refine List.rel_append ?_ (.cons ⟨path,buffer,decoded,by simp [OrdMap.get_set]⟩ .nil)
    have others : ∀ other ∈ done, other.absolutePath host directory ≠ attachment.absolutePath := by
      intro other is_done same
      rw [path] at same
      exact not_mem_paths distinct (List.mem_map.2 ⟨other,is_done,same⟩)
    refine ((List.forall₂_and_left done stored).2 ⟨others,h.each⟩).imp ?_
    rintro other before ⟨apart,before_path,bytes,before_decoded,before_file⟩
    refine ⟨before_path,bytes,before_decoded,?_⟩
    rw [OrdMap.get_set,if_neg (by rw [before_path]; exact apart)]
    exact before_file
  · intro other absent
    rw [List.map_append,List.mem_append,not_or] at absent
    rw [OrdMap.get_set,if_neg (by simpa using absent.2)]
    exact h.kept other absent.1

theorem storeItems_iff {items : List Item} (h : Progress host directory files current done stored)
    (distinct : ((done ++ items).map Item.id).Nodup)
    (fresh : ∀ item ∈ done ++ items, files.get (item.absolutePath host directory) = none) :
    AllOrNothing files (done ++ items) (storeItems host threadId directory current stored items) ↔
      CleanFailure host threadId directory items := by
  induction items generalizing current done stored with
  | nil =>
    rw [List.append_nil] at distinct ⊢
    refine iff_of_true ?_ trivial
    refine ⟨h.each.imp fun _ _ one => one.2,?_,h.kept⟩
    rw [h.paths]
    rw [List.Nodup,List.pairwise_map] at distinct ⊢
    exact distinct.imp fun ne same => ne (Item.id_eq_of_absolutePath host same)
  | cons item items ih =>
    have fresh_done : ∀ item ∈ done, files.get (item.absolutePath host directory) = none :=
      fun item mem => fresh item (List.mem_append_left _ mem)
    have distinct_next : ((done ++ [item]).map Item.id).Nodup := by
      refine distinct.sublist (List.Sublist.map _ ?_)
      exact List.Sublist.append (List.Sublist.refl _) (by simp)
    rw [storeItems,CleanFailure]
    cases prepared : prepare host threadId directory item with
    | error e => exact iff_of_true (h.get_rollback fresh_done) trivial
    | ok result =>
      obtain ⟨attachment,buffer⟩ := result
      obtain ⟨path,decoded⟩ := prepare_spec prepared
      cases item.write with
      | succeeds =>
        have split : done ++ item :: items = (done ++ [item]) ++ items := by simp
        rw [split] at distinct fresh ⊢
        exact ih (h.snoc path decoded distinct_next) distinct fresh
      | fails left =>
        cases left with
        | none => exact iff_of_true (h.get_rollback fresh_done) rfl
        | some n =>
          -- the file of this item is not on the list
          refine iff_of_false ?_ nofun
          intro unchanged
          have left := unchanged attachment.absolutePath
          rw [get_rollback,if_neg (by rw [h.paths,path]; exact not_mem_paths distinct_next),OrdMap.get_set,
            if_pos rfl,path,fresh item (by simp)] at left
          cases left

def Opens (host : Host) (directories : Directories) (cwd threadId : JsText) (attachments : List Item)
    (directory : AbsolutePath) : Prop :=
  attachments.length ≤ maxAttachmentsPerTurn ∧ directories.mkdir = true ∧
    directories.realpath (resolve host.cwd
      [cwd,ofString ".acode",ofString "attachments",threadId]).text = some directory ∧
    ∃ workspaceRoot, directories.realpath cwd = some workspaceRoot ∧
      ensurePathInside host.cwd workspaceRoot.text directory.text = true

/-- With ids that no file carries yet, a call stores all or nothing exactly when no write that
it comes to fails and leaves a file. -/
theorem storeAttachments_allOrNothing_iff (host : Host) (directories : Directories) (files : Files)
    (cwd threadId : JsText) (attachments : List Item) (distinct : (attachments.map Item.id).Nodup)
    (fresh : ∀ item ∈ attachments, ∀ directory, files.get (item.absolutePath host directory) = none) :
    AllOrNothing files attachments (storeAttachments host directories files cwd threadId attachments) ↔
      ∀ directory, Opens host directories cwd threadId attachments directory →
        CleanFailure host threadId directory attachments := by
  have untouched : ∀ e, AllOrNothing files attachments (files,.error e) := fun _ _ => rfl
  unfold storeAttachments
  by_cases many : attachments.length > maxAttachmentsPerTurn
  · rw [if_pos many]
    exact iff_of_true (untouched _) fun _ opens => absurd opens.1 (Nat.not_le.2 many)
  · rw [if_neg many]
    by_cases none : attachments = []
    · rw [if_pos none,none]
      exact iff_of_true ⟨.nil,List.nodup_nil,fun _ _ => rfl⟩ fun _ _ => trivial
    · rw [if_neg none]
      dsimp only
      by_cases made : directories.mkdir = false
      · rw [if_pos made]
        refine iff_of_true (untouched _) fun _ opens => ?_
        have yes := opens.2.1
        rw [made] at yes
        cases yes
      · rw [if_neg made]
        cases workspace : directories.realpath cwd with
        | none =>
          refine iff_of_true (untouched _) ?_
          rintro directory ⟨-,-,-,root,found,-⟩
          rw [workspace] at found
          cases found
        | some workspaceRoot =>
          cases place : directories.realpath (resolve host.cwd
              [cwd,ofString ".acode",ofString "attachments",threadId]).text with
          | none =>
            refine iff_of_true (untouched _) ?_
            rintro directory ⟨-,-,found,-⟩
            rw [place] at found
            cases found
          | some resolvedAttachmentDir =>
            dsimp only
            by_cases inside : ensurePathInside host.cwd workspaceRoot.text resolvedAttachmentDir.text = false
            · rw [if_pos inside]
              refine iff_of_true (untouched _) ?_
              rintro directory ⟨-,-,found,root,found_root,is_inside⟩
              rw [place] at found
              rw [workspace] at found_root
              cases found
              cases found_root
              rw [inside] at is_inside
              cases is_inside
            · rw [if_neg inside]
              have start : Progress host resolvedAttachmentDir files files [] [] := ⟨.nil,fun _ _ => rfl⟩
              have loop : AllOrNothing files ([] ++ attachments)
                    (storeItems host threadId resolvedAttachmentDir files [] attachments) ↔
                  CleanFailure host threadId resolvedAttachmentDir attachments :=
                storeItems_iff start distinct fun item mem => fresh item mem resolvedAttachmentDir
              rw [List.nil_append] at loop
              rw [loop]
              constructor
              · rintro clean directory ⟨-,-,found,-⟩
                rw [place] at found
                cases found
                exact clean
              · intro all
                exact all _ ⟨Nat.not_lt.1 many,by simpa using made,place,workspaceRoot,workspace,by simpa using inside⟩

theorem decodeBase64_error {value : JsText} {e : AttachmentError} (h : decodeBase64 value = .error e) :
    e = .invalidAttachment := by
  unfold decodeBase64 at h
  dsimp only at h
  split_ifs at h
  · cases h
    rfl
  · cases h
    rfl

theorem classifyAttachment_error {fileName mimeType : JsText} {e : AttachmentError}
    (h : classifyAttachment host fileName mimeType = .error e) : e = .unsupportedType := by
  unfold classifyAttachment at h
  dsimp only at h
  split_ifs at h
  cases h
  rfl

/-- The guard of the path never rejects an attachment. -/
theorem prepare_ne_pathEscape (host : Host) (threadId : JsText) (directory : AbsolutePath) (item : Item) :
    prepare host threadId directory item ≠ .error .pathEscape := by
  have inside := item.ensurePathInside_absolutePath host directory
  unfold prepare
  cases decoded : decodeBase64 item.attachment.dataBase64 with
  | error e =>
    have other := decodeBase64_error decoded
    simp [decoded,other,bind,Except.bind]
  | ok bytes =>
    simp only [decoded,bind,Except.bind,inside,Bool.true_eq_false,if_false]
    generalize (if trim (item.attachment.mimeType.getD []) = [] then ofString "application/octet-stream"
      else trim (item.attachment.mimeType.getD [])) = mimeType
    cases kind : classifyAttachment host (sanitizeAttachmentFileName host item.attachment.name) mimeType with
    | error e =>
      rw [classifyAttachment_error kind]
      split_ifs <;> simp
    | ok found => split_ifs <;> simp

/-- Whatever an attachment is called, its file is a direct child of the directory. The name of
the file has no separator, none of the characters that are stripped, and is shared by no
other id. -/
theorem absolutePath_child (host : Host) (threadId : JsText) (directory : AbsolutePath) (item : Item) :
    (∀ attachment buffer, prepare host threadId directory item = .ok (attachment,buffer) →
      attachment.absolutePath = item.absolutePath host directory) ∧
    components (item.absolutePath host directory).text =
      components directory.text ++ [item.storedName host] ∧
    (∀ u ∈ item.storedName host, u ≠ slash ∧ u ≠ backslash ∧ 0x20 ≤ u.toNat ∧ u.toNat ≠ 0x7f) ∧
    (∀ (other : Item) (place : AbsolutePath), other.id ≠ item.id →
      other.absolutePath host place ≠ item.absolutePath host directory) ∧
    ensurePathInside host.cwd directory.text (item.absolutePath host directory).text = true ∧
    prepare host threadId directory item ≠ .error .pathEscape := by
  refine ⟨fun _ _ prepared => (prepare_spec prepared).1,item.components_absolutePath host directory,?_,?_,
    item.ensurePathInside_absolutePath host directory,prepare_ne_pathEscape host threadId directory item⟩
  · intro u mem
    obtain ⟨no_slash,no_backslash,kept⟩ := item.storedName_harmless host u mem
    simp only [isStripped,Bool.or_eq_false_iff,decide_eq_false_iff_not,not_lt] at kept
    exact ⟨no_slash,no_backslash,kept.1,kept.2⟩
  · intro other place apart same
    exact apart (Item.id_eq_of_absolutePath host same)

end Storing

namespace Sample

def host : Host := ⟨fun text => text,fun text => text,⟨ofString "/home",by decide⟩⟩

def directories : Directories where
  mkdir := true
  realpath path := if h : path.head? = some slash then some ⟨path,h⟩ else none

def uuid (digit : UInt16) (h : 0x30 ≤ digit.toNat ∧ digit.toNat ≤ 0x39) : Uuid where
  text := [digit,dash,0x61]
  digits u mem := by
    rcases List.mem_cons.1 mem with rfl | mem
    · exact .inr (.inl h)
    · simp only [List.mem_cons,List.not_mem_nil,or_false] at mem
      rcases mem with rfl | rfl
      · exact .inl rfl
      · exact .inr (.inr (by decide))

/-- Two text files of three bytes; the second one is written by halves. -/
def items (write : WriteFate) : List Item :=
  [{ attachment := { name := ofString "a.txt", dataBase64 := ofString "YWJj" }, uuid := uuid 0x31 (by decide) },
   { attachment := { name := ofString "b.txt", dataBase64 := ofString "ZGVm" }, uuid := uuid 0x32 (by decide)
     write := write }]

def cwd : JsText := ofString "/srv"

def store (write : WriteFate) : Files × Except AttachmentError (List StoredAttachment) :=
  storeAttachments host directories OrdMap.empty cwd (ofString "t") (items write)

end Sample

/-- A write that cannot open its file. -/
theorem unopened_allOrNothing : AllOrNothing OrdMap.empty (Sample.items (.fails none))
    (Sample.store (.fails none)) := by
  refine (storeAttachments_allOrNothing_iff Sample.host Sample.directories OrdMap.empty Sample.cwd
    (ofString "t") (Sample.items (.fails none)) (by decide) (fun _ _ _ => rfl)).2 ?_
  intro directory opens
  simp only [CleanFailure,Sample.items]
  split
  · trivial
  · split
    · trivial
    · trivial

def isControl (u : UInt16) : Bool := u.toNat < 0x20 || 0x7f ≤ u.toNat && u.toNat ≤ 0x9f

/-- The control character U+0085 stays in the name of a file. -/
theorem control_kept :
    let item : Item :=
      { attachment := { name := [0x61,0x85,0x62], dataBase64 := ofString "YWJj" }
        uuid := Sample.uuid 0x31 (by decide) }
    (0x85 : UInt16) ∈ item.storedName Sample.host ∧ isControl 0x85 = true := by
  decide

/-- The write of the second file fails behind its first byte, and the file stays. -/
theorem half_written_left : (Sample.items (.fails (some 1))).map Item.id = [ofString "att_1a",ofString "att_2a"] ∧
    ¬ AllOrNothing OrdMap.empty (Sample.items (.fails (some 1))) (Sample.store (.fails (some 1))) := by
  refine ⟨by decide,?_⟩
  have thrown : (Sample.store (.fails (some 1))).2 = .error .io := by decide
  have left : (Sample.store (.fails (some 1))).1.get
      ⟨ofString "/srv/.acode/attachments/t/att_2a-b.txt",by decide⟩ = some [0x64] := by decide
  intro holds
  unfold AllOrNothing at holds
  rw [thrown] at holds
  have gone := holds ⟨ofString "/srv/.acode/attachments/t/att_2a-b.txt",by decide⟩
  rw [left] at gone
  cases gone

end CodeHarbor.Gateway.Attachments
