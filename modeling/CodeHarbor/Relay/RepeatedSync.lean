import CodeHarbor.Lib.LastWriter
import CodeHarbor.Relay.LiveMetadata
set_option autoImplicit false

namespace CodeHarbor.Relay
open Lib Lib.Go Lib.Sql

/-! A device that syncs the same sessions twice in a row. Each session is a register of its
own in both stores; in Postgres it keeps its workspace path when a record has none. -/

/-- What `syncSessions` leaves of the maps. -/
def Config.syncMemory (c : Config) (now : Time) (ownerUser deviceId : Text)
    (sent : List SessionRecord) (sessions : OrdMap Text SessionRecord) : OrdMap Text SessionRecord :=
  match c.normalizeBatch now ownerUser deviceId sent with
  | .error _ => sessions
  | .ok batch => (c.syncSessionsMemory sessions ownerUser deviceId batch).1

/-- What it leaves of the table, which a rolled back transaction does not change. -/
def Config.syncPostgres (c : Config) (pg : Postgres) (now : Time) (ownerUser deviceId : Text)
    (sent : List SessionRecord) (rows : OrdMap Text SessionRow) : OrdMap Text SessionRow :=
  match c.normalizeBatch now ownerUser deviceId sent with
  | .error _ => rows
  | .ok batch =>
    match c.syncSessionsPostgres pg rows ownerUser deviceId batch with
    | none => rows
    | some (rows',_) => rows'

def pathColumn (stored : Option SessionRow) : Option Text := stored.bind (·.workspacePath)

variable {c : Config}

/-- A record with a title that is newer than all of `above`, and than each one without title
behind it. -/
def stands (own above : List (NormalizedSession c)) : Prop :=
  ∃ a y b, own = a ++ y :: b ∧ y.title ≠ [] ∧
    (∀ z ∈ above, microseconds z.instant < microseconds y.instant) ∧
    ∀ z ∈ b, z.title = [] → microseconds z.instant < microseconds y.instant

/-- A complete row is newer than a record with another path and all before it, but not than all
behind it. They set the row back, so that the second sync takes the record, and no later one of
those it takes has a path. -/
def SessionRow.revives (row : SessionRow) (own : List (NormalizedSession c)) : Prop :=
  readText row.title ≠ [] ∧ ∃ front m rest, own = front ++ m :: rest ∧
    m.workspacePath ≠ [] ∧ m.workspacePath ≠ readText row.workspacePath ∧
    (∀ z ∈ front ++ [m], microseconds z.instant < row.updatedAt) ∧
    (∃ z ∈ rest, row.updatedAt ≤ microseconds z.instant) ∧
    ¬ stands front [m] ∧ ¬ stands own (front ++ [m]) ∧
    ∀ a y b, rest = a ++ y :: b → y.workspacePath ≠ [] → stands (front ++ m :: a) [y]

/-- When the second of two syncs leaves a row as it is: the batch is rolled back; the row is
another device's; it has no path, and no record has one or those before the first path do not
stand above the others; or it has a path, and no record brings in another. -/
def Config.steady (c : Config) (pg : Postgres) (ownerUser deviceId : Text)
    (batch : List (NormalizedSession c)) (sessionId : Text) (stored : Option SessionRow) : Prop :=
  let own := batch.filter (·.id = sessionId)
  (∃ x ∈ batch, x.storable pg ownerUser deviceId = false) ∨
  (∃ row ∈ stored, ¬ row.belongs ownerUser deviceId) ∨
  (readText (pathColumn stored) = [] ∧ ((∀ x ∈ own, x.workspacePath = []) ∨
    ¬ stands (own.takeWhile (·.workspacePath = [])) (own.dropWhile (·.workspacePath = [])))) ∨
  (readText (pathColumn stored) ≠ [] ∧ ∀ row ∈ stored, ¬ row.revives own)

section Registers

variable {ownerUser deviceId sessionId : Text}

def Config.memoryRegister (c : Config) (ownerUser deviceId : Text) :
    LastWriter (Option SessionRecord) (NormalizedSession c) Time where
  incomplete stored := stored.all (fun existing => existing.updatedAt = [] || existing.title = [] ||
    existing.workspacePath = [] || c.parseInstant existing.updatedAt = none)
  time stored := (stored.bind (fun existing => c.parseInstant existing.updatedAt)).getD 0
  stamp x := x.instant
  put _ x := some (x.owned ownerUser deviceId)
  time_put _ x := by
    have hparsed : c.parseInstant (x.owned ownerUser deviceId).updatedAt = some x.instant := x.parsed
    simp [hparsed]

def Config.rowRegister (c : Config) (ownerUser deviceId : Text) :
    LastWriter (Option SessionRow) (NormalizedSession c) Micros where
  incomplete stored := stored.all (fun row => readText row.title = [] || readText row.workspacePath = [])
  time stored := (stored.map (·.updatedAt)).getD 0
  stamp x := microseconds x.instant
  put stored x := some (x.merged ownerUser deviceId stored)
  time_put stored x := by simp [x.merged_updatedAt]

def ownedEntry (ownerUser deviceId : Text) (stored : Option SessionRecord) : Prop :=
  ∀ existing ∈ stored, sessionOwnedBy existing ownerUser deviceId = true

def ownedRow (ownerUser deviceId : Text) (stored : Option SessionRow) : Prop :=
  ∀ row ∈ stored, row.belongs ownerUser deviceId

theorem Config.takesMemory_eq {stored : Option SessionRecord} (x : NormalizedSession c)
    (h : ownedEntry ownerUser deviceId stored) :
    c.takesMemory ownerUser deviceId x stored =
      (c.memoryRegister ownerUser deviceId).takes stored x := by
  cases stored with
  | none => rfl
  | some existing =>
    have howned : sessionOwnedBy existing ownerUser deviceId = true := h existing rfl
    simp only [takesMemory,howned,Bool.true_and,sessionSyncIsNewer]
    by_cases hincomplete : existing.updatedAt = [] ∨ existing.title = [] ∨ existing.workspacePath = []
    · rcases hincomplete with h | h | h
      · simp [h,LastWriter.takes,memoryRegister]
      · simp [h,LastWriter.takes,memoryRegister]
      · simp [h,LastWriter.takes,memoryRegister]
    · rw [if_neg hincomplete]
      simp only [not_or] at hincomplete
      cases hparsed : c.parseInstant existing.updatedAt with
      | none => simp [LastWriter.takes,memoryRegister,hparsed]
      | some existingAt => simp [LastWriter.takes,memoryRegister,hparsed,hincomplete]

theorem NormalizedSession.takesRow_eq {stored : Option SessionRow} (x : NormalizedSession c)
    (h : ownedRow ownerUser deviceId stored) :
    x.takesRow ownerUser deviceId stored = (c.rowRegister ownerUser deviceId).takes stored x := by
  cases stored with
  | none => rfl
  | some row =>
    have hbelongs : row.belongs ownerUser deviceId := h row rfl
    rw [Bool.eq_iff_iff,takesRow_iff,LastWriter.takes_iff]
    simp [Config.rowRegister,hbelongs,or_comm]

theorem ownedEntry_owned (x : NormalizedSession c) :
    ownedEntry ownerUser deviceId (some (x.owned ownerUser deviceId)) := by
  intro existing h
  cases h
  simp [sessionOwnedBy,NormalizedSession.owned]

theorem ownedRow_merged {stored : Option SessionRow} (x : NormalizedSession c)
    (h : ownedRow ownerUser deviceId stored) :
    ownedRow ownerUser deviceId (some (x.merged ownerUser deviceId stored)) := by
  intro row hrow
  cases hrow
  cases stored with
  | none => exact ⟨.inr rfl,.inr rfl⟩
  | some row =>
    obtain ⟨howner,hdevice⟩ := h row rfl
    refine ⟨.inr ?_,.inr ?_⟩
    · simp only [NormalizedSession.merged,SessionRow.syncUpdate,readText_coalesce]
      rcases howner with hnil | hsame
      · simp [hnil,NormalizedSession.row]
      · simp [hsame,NormalizedSession.row]
    · simp only [NormalizedSession.merged,SessionRow.syncUpdate,readText_coalesce]
      rcases hdevice with hnil | hsame
      · simp [hnil,NormalizedSession.row]
      · simp [hsame,NormalizedSession.row]

theorem coalesce_own {column : Option Text} {text : Text}
    (h : readText column = [] ∨ readText column = text) :
    coalesce (nullIfEmpty column) (some text) = some text := by
  cases column with
  | none => rfl
  | some value =>
    cases value with
    | nil => rfl
    | cons x value =>
      have hsame : x :: value = text := by simpa using h
      rw [← hsame]
      rfl

theorem NormalizedSession.merged_eq {stored : Option SessionRow} (x : NormalizedSession c)
    (h : ownedRow ownerUser deviceId stored) :
    x.merged ownerUser deviceId stored = { x.row ownerUser deviceId with
      workspacePath := coalesce (nullIfEmpty (some x.workspacePath)) (pathColumn stored) } := by
  cases stored with
  | none => simp [merged,row,pathColumn,coalesce]
  | some row =>
    obtain ⟨howner,hdevice⟩ := h row rfl
    have howned := coalesce_own howner
    have hplaced := coalesce_own hdevice
    simp [merged,NormalizedSession.row,SessionRow.syncUpdate,howned,hplaced,pathColumn]

theorem NormalizedSession.pathColumn_merged {stored : Option SessionRow} (x : NormalizedSession c)
    (h : ownedRow ownerUser deviceId stored) :
    pathColumn (some (x.merged ownerUser deviceId stored)) =
      if x.workspacePath = [] then pathColumn stored else some x.workspacePath := by
  rw [x.merged_eq h]
  cases hpath : x.workspacePath with
  | nil => simp [pathColumn,nullIfEmpty,coalesce]
  | cons a path => simp [pathColumn,nullIfEmpty,coalesce]

theorem Config.foldl_memory {stored : Option SessionRecord} (own : List (NormalizedSession c))
    (h : ownedEntry ownerUser deviceId stored) :
    own.foldl (settle (fun e x => c.takesMemory ownerUser deviceId x e)
        (fun _ x => x.owned ownerUser deviceId)) stored =
      own.foldl (c.memoryRegister ownerUser deviceId).write stored := by
  refine LastWriter.foldl_eq_write (I := ownedEntry ownerUser deviceId) ?_ ?_ h
  · intro e x he
    rw [settle,LastWriter.write,takesMemory_eq x he]
    rfl
  · exact fun e x _ => ownedEntry_owned x

def passRow (ownerUser deviceId : Text) (own : List (NormalizedSession c))
    (stored : Option SessionRow) : Option SessionRow :=
  own.foldl (settle (NormalizedSession.takesRow ownerUser deviceId)
    (NormalizedSession.merged ownerUser deviceId)) stored

theorem ownedRow_foldl {stored : Option SessionRow} (own : List (NormalizedSession c))
    (h : ownedRow ownerUser deviceId stored) :
    ownedRow ownerUser deviceId (own.foldl (c.rowRegister ownerUser deviceId).write stored) := by
  refine List.foldlRecOn (motive := ownedRow ownerUser deviceId) own _ h ?_
  intro e he x _
  unfold LastWriter.write
  split_ifs
  · exact ownedRow_merged x he
  · exact he

theorem passRow_eq {stored : Option SessionRow} (own : List (NormalizedSession c))
    (h : ownedRow ownerUser deviceId stored) :
    passRow ownerUser deviceId own stored =
      own.foldl (c.rowRegister ownerUser deviceId).write stored := by
  refine LastWriter.foldl_eq_write (I := ownedRow ownerUser deviceId) ?_ ?_ h
  · intro e x he
    rw [settle,LastWriter.write,x.takesRow_eq he]
    rfl
  · exact fun e x he => ownedRow_merged x he

theorem foldl_settle_of_skips {ε ξ : Type} {takes : Option ε → ξ → Bool} {put : Option ε → ξ → ε}
    {entry : Option ε} {xs : List ξ} (h : ∀ x ∈ xs, takes entry x = false) :
    xs.foldl (settle takes put) entry = entry := by
  induction xs with
  | nil => rfl
  | cons x xs ih =>
    have hx : settle takes put entry x = entry := by simp [settle,h x List.mem_cons_self]
    rw [List.foldl_cons,hx]
    exact ih (fun y hy => h y (List.mem_cons_of_mem x hy))

theorem Config.foldl_memory_again (stored : Option SessionRecord) (own : List (NormalizedSession c)) :
    let sync := settle (fun e x => c.takesMemory ownerUser deviceId x e)
      (fun _ (x : NormalizedSession c) => x.owned ownerUser deviceId)
    own.foldl sync (own.foldl sync stored) = own.foldl sync stored := by
  intro sync
  by_cases h : ownedEntry ownerUser deviceId stored
  · have hsame : (c.memoryRegister ownerUser deviceId).Overwrites (ownedEntry ownerUser deviceId) own :=
      ⟨fun _ _ _ _ _ _ => rfl,fun x _ _ _ => ownedEntry_owned x⟩
    rw [foldl_memory own h,foldl_memory own (hsame.foldl_mem h)]
    exact hsame.foldl_again h
  · have hskips : own.foldl sync stored = stored := by
      refine foldl_settle_of_skips (fun x _ => ?_)
      cases stored with
      | none => exact absurd (by simp [ownedEntry]) h
      | some existing =>
        have hforeign : sessionOwnedBy existing ownerUser deviceId = false := by
          rw [← Bool.not_eq_true]
          intro howned
          exact h (fun e he => by cases he; exact howned)
        simp [takesMemory,hforeign]
    rw [hskips,hskips]

section Rows

variable {stored : Option SessionRow} {own : List (NormalizedSession c)}

def NormalizedSession.givenPath (x : NormalizedSession c) : Option (Option Text) :=
  if x.workspacePath = [] then none else some (some x.workspacePath)

theorem NormalizedSession.givenPath_eq_none {x : NormalizedSession c} :
    x.givenPath = none ↔ x.workspacePath = [] := by
  simp [givenPath]

theorem NormalizedSession.givenPath_eq_some {x : NormalizedSession c} {path : Option Text} :
    x.givenPath = some path ↔ x.workspacePath ≠ [] ∧ path = some x.workspacePath := by
  simp [givenPath,eq_comm]

/-- A row keeps its path when a record has none, and with a path it wants only a title. -/
theorem Config.rowRegister_keeps :
    (c.rowRegister ownerUser deviceId).Keeps (ownedRow ownerUser deviceId)
      (fun x => decide (x.title = []))
      (fun s => s.map (fun row => { row with workspacePath := none })) pathColumn
      NormalizedSession.givenPath (fun path => readText path ≠ []) where
  ext s r hcore hkept := by
    cases s with
    | none =>
      cases r with
      | none => rfl
      | some row => simp at hcore
    | some row =>
      cases r with
      | none => simp at hcore
      | some row' =>
        obtain ⟨device,owner,status,title,path,updatedAt,mode⟩ := row
        simp only [Option.map_some,Option.some.injEq,SessionRow.mk.injEq] at hcore
        have hpath : path = row'.workspacePath := hkept
        obtain ⟨rfl,rfl,rfl,rfl,-,rfl,rfl⟩ := hcore
        rw [hpath]
  put_mem s x hs := ownedRow_merged x hs
  core_put s r x hs hr := by simp [rowRegister,x.merged_eq hs,x.merged_eq hr]
  kept_put s x hs := by
    simp only [rowRegister]
    rw [x.pathColumn_merged hs,NormalizedSession.givenPath]
    split_ifs <;> rfl
  full_given x path hpath := by
    obtain ⟨hne,rfl⟩ := NormalizedSession.givenPath_eq_some.mp hpath
    exact hne
  vacant s hs := by
    rw [not_not] at hs
    cases s with
    | none => rfl
    | some row =>
      have hpath : readText row.workspacePath = [] := hs
      simp [rowRegister,hpath]
  incomplete_put s x hfull := by
    have hpath : readText (x.merged ownerUser deviceId s).workspacePath ≠ [] := hfull
    have htitle : readText (x.merged ownerUser deviceId s).title = x.title := (x.merged_metadata s).2.1
    simp [rowRegister,hpath,htitle]

theorem Config.stands_iff (ownerUser deviceId : Text) {above : List (NormalizedSession c)} :
    ((c.rowRegister ownerUser deviceId).stamped (fun x => decide (x.title = []))).Stands own above ↔
      stands own above := by
  simp [Stamped.Stands,stands,LastWriter.stamped,rowRegister]

theorem Config.clock_row {row : SessionRow} (hpath : readText row.workspacePath ≠ []) :
    (c.rowRegister ownerUser deviceId).clock (some row) =
      if readText row.title = [] then ⊥ else (row.updatedAt : WithBot Micros) := by
  simp [LastWriter.clock,rowRegister,hpath]

theorem Config.revives_iff {row : SessionRow} (hpath : readText row.workspacePath ≠ []) :
    ((c.rowRegister ownerUser deviceId).stamped (fun x => decide (x.title = []))).Revives
        NormalizedSession.givenPath ((c.rowRegister ownerUser deviceId).clock (some row))
        row.workspacePath own ↔ row.revives own := by
  have hother : ∀ text : Text, some text ≠ row.workspacePath ↔ text ≠ readText row.workspacePath := by
    intro text
    cases hrow : row.workspacePath with
    | none => simp [hrow] at hpath
    | some path => simp
  rw [clock_row hpath]
  simp only [Stamped.Revives,stands_iff,SessionRow.revives]
  split_ifs with htitle
  · refine iff_of_false ?_ (fun h => h.1 htitle)
    rintro ⟨front,m,rest,path,-,-,-,hbefore,-⟩
    exact absurd (hbefore m (by simp)) not_lt_bot
  · simp only [WithBot.coe_lt_coe,WithBot.coe_le_coe,NormalizedSession.givenPath_eq_some,ne_eq,
      NormalizedSession.givenPath_eq_none]
    constructor
    · rintro ⟨front,m,rest,path,hown,⟨hm,rfl⟩,hne,hfacts⟩
      exact ⟨htitle,front,m,rest,hown,hm,(hother _).mp hne,hfacts⟩
    · rintro ⟨-,front,m,rest,hown,hm,hne,hfacts⟩
      exact ⟨front,m,rest,some m.workspacePath,hown,⟨hm,rfl⟩,(hother _).mpr hne,hfacts⟩

theorem Config.foldl_rows_again_iff (hs : ownedRow ownerUser deviceId stored) :
    own.foldl (c.rowRegister ownerUser deviceId).write
        (own.foldl (c.rowRegister ownerUser deviceId).write stored) =
      own.foldl (c.rowRegister ownerUser deviceId).write stored ↔
    (readText (pathColumn stored) = [] ∧ ((∀ x ∈ own, x.workspacePath = []) ∨
      ¬ stands (own.takeWhile (·.workspacePath = [])) (own.dropWhile (·.workspacePath = [])))) ∨
    (readText (pathColumn stored) ≠ [] ∧ ∀ row ∈ stored, ¬ row.revives own) := by
  by_cases hpath : readText (pathColumn stored) = []
  · have hvacant : ¬ readText (pathColumn stored) ≠ [] := not_not.mpr hpath
    simp only [hpath,true_and,ne_eq,not_true,false_and,or_false]
    by_cases hnone : ∀ x ∈ own, x.workspacePath = []
    · refine iff_of_true ?_ (.inl hnone)
      exact rowRegister_keeps.again_of_none hs hvacant
        (fun x hx => NormalizedSession.givenPath_eq_none.mpr (hnone x hx))
    · rw [or_iff_right hnone]
      have hfront : ∀ y ∈ own.takeWhile (·.workspacePath = []), y.givenPath = none := by
        intro y hy
        have hnil := List.mem_takeWhile_imp hy
        exact NormalizedSession.givenPath_eq_none.mpr (by simpa using hnil)
      have hsplit := List.takeWhile_append_dropWhile (p := fun x => decide (x.workspacePath = [])) (l := own)
      have hhead := List.head?_dropWhile_not (fun x : NormalizedSession c => decide (x.workspacePath = [])) own
      cases hrest : own.dropWhile (·.workspacePath = []) with
      | nil =>
        rw [List.dropWhile_eq_nil_iff] at hrest
        exact absurd (by simpa using hrest) hnone
      | cons x rest =>
        rw [hrest] at hsplit hhead
        have hx : x.givenPath ≠ none := by
          rw [Ne,NormalizedSession.givenPath_eq_none]
          simpa using hhead
        rw [← stands_iff ownerUser deviceId,
          ← rowRegister_keeps.again_iff_of_vacant hs hvacant hx hfront,hsplit]
  · simp only [hpath,false_and,ne_eq,not_false_iff,true_and,false_or]
    rw [rowRegister_keeps.again_iff_of_full hs hpath]
    cases stored with
    | none => exact absurd rfl hpath
    | some row =>
      have hrow : readText row.workspacePath ≠ [] := hpath
      have hcolumn : pathColumn (some row) = row.workspacePath := rfl
      rw [hcolumn,revives_iff hrow]
      simp

end Rows

end Registers

section Twice

variable {pg : Postgres} {now now' : Time} {ownerUser deviceId sessionId : Text}
  {sent : List SessionRecord} {batch : List (NormalizedSession c)}

theorem Config.normalizeBatch_dated (hdated : ∀ x ∈ sent, trimSpace x.updatedAt ≠ []) :
    c.normalizeBatch now' ownerUser deviceId sent = c.normalizeBatch now ownerUser deviceId sent := by
  have hone : ∀ x ∈ sent, c.normalizeSessionSync now' x = c.normalizeSessionSync now x := by
    intro x hx
    have htrim : c.trimSession now' x = c.trimSession now x := by
      simp [trimSession,hdated x hx]
    unfold normalizeSessionSync
    rw [htrim]
  have hall : sent.mapM (c.normalizeSessionSync now') = sent.mapM (c.normalizeSessionSync now) := by
    clear hdated
    induction sent with
    | nil => rfl
    | cons x sent ih =>
      rw [List.mapM_cons,List.mapM_cons,hone x List.mem_cons_self,
        ih (fun y hy => hone y (List.mem_cons_of_mem x hy))]
  unfold normalizeBatch
  rw [hall]

theorem Config.foldl_syncOnePostgres_refused {x : NormalizedSession c} (hx : x ∈ batch)
    (h : x.storable pg ownerUser deviceId = false)
    (state : Option (OrdMap Text SessionRow × SessionSyncResult)) :
    batch.foldl (c.syncOnePostgres pg ownerUser deviceId) state = none := by
  induction batch generalizing state with
  | nil => cases hx
  | cons y batch ih =>
    rw [List.foldl_cons]
    rcases List.mem_cons.mp hx with rfl | hx
    · have hnone : c.syncOnePostgres pg ownerUser deviceId state x = none := by
        cases state with
        | none => rfl
        | some state => simp [syncOnePostgres,h]
      rw [hnone,foldl_syncOnePostgres_none]
    · exact ih hx _

theorem Config.foldl_syncOnePostgres_isSome (h : ∀ x ∈ batch, x.storable pg ownerUser deviceId = true)
    (state : OrdMap Text SessionRow × SessionSyncResult) :
    ∃ state', batch.foldl (c.syncOnePostgres pg ownerUser deviceId) (some state) = some state' := by
  induction batch generalizing state with
  | nil => exact ⟨state,rfl⟩
  | cons x batch ih =>
    rw [List.foldl_cons,syncOnePostgres_some (h x List.mem_cons_self)]
    exact ih (fun y hy => h y (List.mem_cons_of_mem x hy)) _

theorem Config.syncPostgres_get (hbatch : c.normalizeBatch now ownerUser deviceId sent = .ok batch)
    (h : ∀ x ∈ batch, x.storable pg ownerUser deviceId = true) (rows : OrdMap Text SessionRow) :
    (c.syncPostgres pg now ownerUser deviceId sent rows).get sessionId =
      passRow ownerUser deviceId (batch.filter (·.id = sessionId)) (rows.get sessionId) := by
  obtain ⟨⟨rows',result⟩,hrows⟩ := foldl_syncOnePostgres_isSome h (rows,{})
  have hsync : c.syncSessionsPostgres pg rows ownerUser deviceId batch = some (rows',result) := hrows
  simp only [syncPostgres,hbatch,hsync]
  exact syncSessionsPostgres_get hrows

theorem Config.syncMemory_get (hbatch : c.normalizeBatch now ownerUser deviceId sent = .ok batch)
    (sessions : OrdMap Text SessionRecord) :
    (c.syncMemory now ownerUser deviceId sent sessions).get sessionId =
      (batch.filter (·.id = sessionId)).foldl (settle (fun e x => c.takesMemory ownerUser deviceId x e)
        (fun _ x => x.owned ownerUser deviceId)) (sessions.get sessionId) := by
  simp only [syncMemory,hbatch]
  exact syncSessionsMemory_get sessions batch

theorem Config.syncPostgres_refused (hbatch : c.normalizeBatch now ownerUser deviceId sent = .ok batch)
    (h : ∃ x ∈ batch, x.storable pg ownerUser deviceId = false) (rows : OrdMap Text SessionRow) :
    c.syncPostgres pg now ownerUser deviceId sent rows = rows := by
  obtain ⟨x,hx,hrefused⟩ := h
  have hnone : c.syncSessionsPostgres pg rows ownerUser deviceId batch = none :=
    foldl_syncOnePostgres_refused hx hrefused _
  simp only [syncPostgres,hbatch,hnone]

theorem Config.passRow_again_iff {stored : Option SessionRow}
    (hstorable : ∀ x ∈ batch, x.storable pg ownerUser deviceId = true) :
    let once := passRow ownerUser deviceId (batch.filter (·.id = sessionId)) stored
    passRow ownerUser deviceId (batch.filter (·.id = sessionId)) once = once ↔
      c.steady pg ownerUser deviceId batch sessionId stored := by
  intro once
  have hrefused : ¬ ∃ x ∈ batch, x.storable pg ownerUser deviceId = false := by simpa using hstorable
  by_cases howned : ownedRow ownerUser deviceId stored
  · have hforeign : ¬ ∃ row ∈ stored, ¬ row.belongs ownerUser deviceId := by
      rintro ⟨row,hrow,hforeign⟩
      exact hforeign (howned row hrow)
    simp only [once,steady]
    rw [or_iff_right hrefused,or_iff_right hforeign,passRow_eq _ howned,
      passRow_eq _ (ownedRow_foldl _ howned)]
    exact foldl_rows_again_iff howned
  · have hskips : once = stored := by
      refine foldl_settle_of_skips (fun x _ => ?_)
      cases stored with
      | none => exact absurd (by simp [ownedRow]) howned
      | some row =>
        rw [← Bool.not_eq_true]
        intro htakes
        refine howned (fun r hr => ?_)
        cases hr
        exact (NormalizedSession.takesRow_iff.mp htakes).1
    simp only [ownedRow,not_forall] at howned
    obtain ⟨row,hrow,hforeign⟩ := howned
    refine iff_of_true ?_ (.inr (.inl ⟨row,hrow,hforeign⟩))
    rw [hskips]
    exact hskips

/-- A second sync of the same sessions changes no session in memory. In Postgres it leaves a
row exactly when that is steady. -/
theorem Config.syncSessions_again (pg : Postgres) (now' : Time)
    (hdated : ∀ x ∈ sent, trimSpace x.updatedAt ≠ [])
    (hbatch : c.normalizeBatch now ownerUser deviceId sent = .ok batch) (sessionId : Text) :
    (∀ sessions,
      let once := c.syncMemory now ownerUser deviceId sent sessions
      (c.syncMemory now' ownerUser deviceId sent once).get sessionId = once.get sessionId) ∧
    ∀ rows,
      let once := c.syncPostgres pg now ownerUser deviceId sent rows
      (c.syncPostgres pg now' ownerUser deviceId sent once).get sessionId = once.get sessionId ↔
        c.steady pg ownerUser deviceId batch sessionId (rows.get sessionId) := by
  have hbatch' : c.normalizeBatch now' ownerUser deviceId sent = .ok batch := by
    rw [normalizeBatch_dated hdated]
    exact hbatch
  refine ⟨?_,?_⟩
  · intro sessions once
    rw [syncMemory_get hbatch',syncMemory_get hbatch]
    exact foldl_memory_again _ _
  · intro rows once
    by_cases hrefused : ∃ x ∈ batch, x.storable pg ownerUser deviceId = false
    · refine iff_of_true ?_ (.inl hrefused)
      rw [syncPostgres_refused hbatch' hrefused]
    · have hstorable : ∀ x ∈ batch, x.storable pg ownerUser deviceId = true := by
        simpa using hrefused
      have honce : once.get sessionId = _ := syncPostgres_get hbatch hstorable rows
      rw [syncPostgres_get hbatch' hstorable once,honce]
      exact passRow_again_iff hstorable

end Twice

namespace Sample

/-- Session `a` at one minute past ten without a path, and an older record of it with one. -/
def pathBehind : List SessionRecord :=
  [{ id := "a".toList, title := "A".toList, updatedAt := tenOne },
   { id := "a".toList, title := "A".toList, workspacePath := projectA, updatedAt := ten }]

theorem tenOne_parsed : clock.parseInstant tenOne = some (tenInstant+60*1000000000) := by decide

/-- A record without path, one without title and an older one behind it with another path. -/
def titleBehind : List SessionRecord :=
  [{ id := "a".toList, title := "A".toList, updatedAt := ten },
   { id := "a".toList, workspacePath := projectA, updatedAt := tenOne },
   { id := "a".toList, title := "A".toList, workspacePath := "/srv/b".toList, updatedAt := ten }]

def titleBehindBatch : List (NormalizedSession clock) :=
  [{ id := "a".toList, title := "A".toList, updatedAt := ten
     sessionPolicyMode := confirmMode, instant := tenInstant, parsed := by decide },
   { id := "a".toList, workspacePath := projectA, updatedAt := tenOne
     sessionPolicyMode := confirmMode, instant := tenInstant+60*1000000000, parsed := tenOne_parsed },
   { id := "a".toList, title := "A".toList, workspacePath := "/srv/b".toList, updatedAt := ten
     sessionPolicyMode := confirmMode, instant := tenInstant, parsed := by decide }]

/-- The session as it was at noon. -/
def noonRow : SessionRow where
  deviceId := some laptop
  ownerUser := some amy
  title := some "A".toList
  workspacePath := some projectA
  updatedAt := microseconds (tenInstant+2*3600*1000000000)

def noonRows : OrdMap Text SessionRow := OrdMap.empty.set "a".toList noonRow

end Sample

theorem titleBehind_again :
    let once := Sample.clock.syncPostgres Sample.postgres 0 Sample.amy Sample.laptop Sample.titleBehind
    let twice := fun rows =>
      Sample.clock.syncPostgres Sample.postgres 1 Sample.amy Sample.laptop Sample.titleBehind (once rows)
    ((once OrdMap.empty).get "a".toList).map (·.workspacePath) = some (some "/srv/b".toList) ∧
      (twice OrdMap.empty).get "a".toList = (once OrdMap.empty).get "a".toList ∧
      (twice Sample.noonRows).get "a".toList = (once Sample.noonRows).get "a".toList := by
  refine ⟨by decide,?_⟩
  have hbatch : Sample.clock.normalizeBatch 0 Sample.amy Sample.laptop Sample.titleBehind =
      .ok Sample.titleBehindBatch := by
    decide
  have hagain := Config.syncSessions_again Sample.postgres 1 (by decide) hbatch "a".toList
  let own := Sample.titleBehindBatch.filter (·.id = "a".toList)
  refine ⟨(hagain.2 OrdMap.empty).mpr (.inr (.inr (.inl ⟨by decide,.inr ?_⟩))),
    (hagain.2 Sample.noonRows).mpr (.inr (.inr (.inr ⟨by decide,?_⟩)))⟩
  · -- the record without path is not newer than the others
    rintro ⟨a,y,b,hsplit,-,hnewer,-⟩
    have hlater : ∀ y ∈ own.takeWhile (·.workspacePath = []), ∃ z ∈ own.dropWhile (·.workspacePath = []),
        ¬ microseconds z.instant < microseconds y.instant := by
      decide
    obtain ⟨z,hz,hle⟩ := hlater y (by rw [hsplit]; simp)
    exact hle (hnewer z hz)
  · -- and none of them is as new as the row
    rintro row hrow ⟨-,front,m,rest,hsplit,-,-,-,⟨z,hz,hnewer⟩,-⟩
    have holder : ∀ z ∈ own, microseconds z.instant < Sample.noonRow.updatedAt := by decide
    have hnoon : Sample.noonRow = row := by
      have hget : Sample.noonRows.get "a".toList = some Sample.noonRow := by decide
      rw [hget] at hrow
      exact Option.some.inj hrow
    rw [← hnoon] at hnewer
    exact absurd (holder z (by rw [show own = _ from hsplit]; simp [hz])) hnewer.not_gt

/-- The second sync brings back the record without a path, which the older one had replaced. -/
theorem pathBehind_changes :
    let once := Sample.clock.syncPostgres Sample.postgres 0 Sample.amy Sample.laptop
      Sample.pathBehind OrdMap.empty
    (∀ x ∈ Sample.pathBehind, trimSpace x.updatedAt ≠ []) ∧
      (Sample.clock.normalizeBatch 0 Sample.amy Sample.laptop Sample.pathBehind).isOk = true ∧
      (Sample.clock.syncPostgres Sample.postgres 0 Sample.amy Sample.laptop Sample.pathBehind
        once).get "a".toList ≠ once.get "a".toList := by
  decide

end CodeHarbor.Relay
