import CodeHarbor.App.Aggregator
set_option autoImplicit false

namespace CodeHarbor.App
open Lib.Js

/-! A row that the app made before the gateway confirmed the prompt differs from the row of
the confirmed event in its time and its attachments. No event reads these fields, so the
two transcripts go on side by side. -/

/-- The fields of a row that are only shown. -/
structure Dress where
  userAttachments : Value
  userTime : Value
  isInterjection : Option Bool
  startedAt : JsText

def TurnMessage.dress (turn : TurnMessage) (d : Dress) : TurnMessage :=
  { turn with
    userAttachments := d.userAttachments
    userTime := d.userTime
    isInterjection := d.isInterjection
    startedAt := d.startedAt }

/-- The attachments are a list, which a copy leaves as it is. -/
def TurnMessage.listed (turn : TurnMessage) : Bool := turn.userAttachments.items?.isSome

/-- The same row, or two rows of one prompt in different dress. -/
def TurnMessage.Alike (sent : List JsText) (a b : TurnMessage) : Prop :=
  a = b ∨ ((∃ id ∈ sent, a.clientRequestId = some id) ∧ a.listed = true ∧ b.listed = true ∧
    ∃ d, b = a.dress d)

/-- Two transcripts that differ only in the dress of rows the app has sent. -/
def Alike (sent : List JsText) (xs ys : List TurnMessage) : Prop :=
  List.Forall₂ (TurnMessage.Alike sent) xs ys

section Rows

variable {sent : List JsText} {a b : TurnMessage}

theorem TurnMessage.Alike.refl (sent : List JsText) (a : TurnMessage) : a.Alike sent a := .inl rfl

theorem Alike.refl (sent : List JsText) (xs : List TurnMessage) : Alike sent xs xs :=
  List.forall₂_same.mpr (fun a _ => TurnMessage.Alike.refl sent a)

theorem TurnMessage.Alike.field {α : Type} {f : TurnMessage → α} (hf : ∀ a d, f (a.dress d) = f a)
    (h : a.Alike sent b) : f a = f b := by
  rcases h with rfl | ⟨-,-,-,d,rfl⟩
  · rfl
  · exact (hf a d).symm

theorem TurnMessage.Alike.mono {more : List JsText} (h : a.Alike sent b) (hsub : ∀ id ∈ sent, id ∈ more) :
    a.Alike more b := by
  rcases h with rfl | ⟨⟨id,hid,ha⟩,hrest⟩
  · exact .refl more a
  · exact .inr ⟨⟨id,hsub id hid,ha⟩,hrest⟩

theorem TurnMessage.clone_of_listed (h : a.listed = true) : a.clone = some a := by
  unfold listed at h
  unfold clone
  cases hatt : a.userAttachments with
  | arr items =>
    simp only [Value.truthy,if_true,Value.spread,Option.map_some]
    rw [← hatt]
  | _ => simp [hatt,Value.items?] at h

theorem TurnMessage.Alike.clone (h : a.Alike sent b) {a' : TurnMessage} (ha : a.clone = some a') :
    ∃ b', b.clone = some b' ∧ a'.Alike sent b' := by
  rcases h with rfl | ⟨hid,hla,hlb,hd⟩
  · exact ⟨a',ha,.refl sent a'⟩
  · rw [clone_of_listed hla,Option.some.injEq] at ha
    subst ha
    exact ⟨b,clone_of_listed hlb,.inr ⟨hid,hla,hlb,hd⟩⟩

/-- A change of a row that neither reads nor writes what is only shown. -/
structure Blind (f : TurnMessage → Option TurnMessage) : Prop where
  dress : ∀ a d, f (a.dress d) = (f a).map (·.dress d)
  kept : ∀ a b, f a = some b →
    b.clientRequestId = a.clientRequestId ∧ b.userAttachments = a.userAttachments

theorem Blind.alike {f : TurnMessage → Option TurnMessage} (hf : Blind f) (h : a.Alike sent b)
    {a' : TurnMessage} (ha : f a = some a') : ∃ b', f b = some b' ∧ a'.Alike sent b' := by
  rcases h with rfl | ⟨⟨id,hid,hcid⟩,hla,hlb,d,rfl⟩
  · exact ⟨a',ha,.refl sent a'⟩
  · obtain ⟨hcid',hatt⟩ := hf.kept a a' ha
    refine ⟨a'.dress d,by rw [hf.dress,ha]; rfl,.inr ⟨⟨id,hid,hcid'.trans hcid⟩,?_,hlb,d,rfl⟩⟩
    unfold TurnMessage.listed
    rw [hatt]
    exact hla

theorem blind_of {f : TurnMessage → TurnMessage} (hdress : ∀ a d, f (a.dress d) = (f a).dress d)
    (hid : ∀ a, (f a).clientRequestId = a.clientRequestId)
    (hattachments : ∀ a, (f a).userAttachments = a.userAttachments) : Blind (fun a => some (f a)) where
  dress a d := by rw [hdress,Option.map_some]
  kept a b hb := by
    cases hb
    exact ⟨hid a,hattachments a⟩

theorem Blind.ite {c : TurnMessage → Prop} [DecidablePred c] {f g : TurnMessage → Option TurnMessage}
    (hc : ∀ a d, c (a.dress d) ↔ c a) (hf : Blind f) (hg : Blind g) :
    Blind (fun a => if c a then f a else g a) where
  dress a d := by
    simp only [hc a d]
    split_ifs
    · exact hf.dress a d
    · exact hg.dress a d
  kept a b hb := by
    split_ifs at hb
    · exact hf.kept a b hb
    · exact hg.kept a b hb

theorem Blind.ite_some {c : TurnMessage → Prop} [DecidablePred c] {f g : TurnMessage → TurnMessage}
    (hc : ∀ a d, c (a.dress d) ↔ c a) (hf : Blind (fun a => some (f a)))
    (hg : Blind (fun a => some (g a))) : Blind (fun a => some (if c a then f a else g a)) := by
  have heq : (fun a => some (if c a then f a else g a)) = (fun a => if c a then some (f a) else some (g a)) :=
    funext (fun a => apply_ite some (c a) (f a) (g a))
  rw [heq]
  exact Blind.ite hc hf hg

theorem blind_id : Blind (fun a => some a) := blind_of (fun _ _ => rfl) (fun _ => rfl) (fun _ => rfl)

theorem Blind.alike_some {f : TurnMessage → TurnMessage} (hf : Blind (fun a => some (f a)))
    (h : a.Alike sent b) : (f a).Alike sent (f b) := by
  obtain ⟨b',hb,halike⟩ := hf.alike h rfl
  rw [Option.some.injEq] at hb
  rw [hb]
  exact halike

end Rows

section Lists

variable {sent : List JsText} {xs ys : List TurnMessage}

theorem Alike.length_eq (h : Alike sent xs ys) : xs.length = ys.length := List.Forall₂.length_eq h

theorem Alike.append {xs' ys' : List TurnMessage} (h : Alike sent xs ys) (h' : Alike sent xs' ys') :
    Alike sent (xs ++ xs') (ys ++ ys') := List.rel_append h h'

theorem Alike.mono {more : List JsText} (h : Alike sent xs ys) (hsub : ∀ id ∈ sent, id ∈ more) :
    Alike more xs ys := List.Forall₂.imp (fun _ _ hab => hab.mono hsub) h

theorem Alike.ite {c : Prop} [Decidable c] {xs' ys' : List TurnMessage} (h : Alike sent xs ys)
    (h' : Alike sent xs' ys') : Alike sent (if c then xs else xs') (if c then ys else ys') := by
  split_ifs
  · exact h
  · exact h'

theorem Alike.getElem? (h : Alike sent xs ys) {i : Nat} {a : TurnMessage} (ha : xs[i]? = some a) :
    ∃ b, ys[i]? = some b ∧ a.Alike sent b := by
  induction h generalizing i with
  | nil => simp at ha
  | cons hab _ ih =>
    cases i with
    | zero =>
      simp only [List.getElem?_cons_zero,Option.some.injEq] at ha
      subst ha
      exact ⟨_,rfl,hab⟩
    | succ i => exact ih (by simpa using ha)

theorem Alike.getLast? {α : Type} (h : Alike sent xs ys) {f : TurnMessage → α}
    (hf : ∀ a d, f (a.dress d) = f a) : xs.getLast?.map f = ys.getLast?.map f := by
  rw [List.getLast?_eq_getElem?,List.getLast?_eq_getElem?,h.length_eq]
  cases hx : xs[ys.length-1]? with
  | none =>
    have hle : ys.length ≤ ys.length-1 := by
      have hbound := List.getElem?_eq_none_iff.mp hx
      rwa [h.length_eq] at hbound
    rw [List.getElem?_eq_none hle]
  | some a =>
    obtain ⟨b,hb,hab⟩ := h.getElem? hx
    rw [hb]
    simp [hab.field hf]

theorem Alike.map (h : Alike sent xs ys) {f : TurnMessage → TurnMessage}
    (hf : Blind (fun a => some (f a))) : Alike sent (xs.map f) (ys.map f) := by
  induction h with
  | nil => exact .nil
  | cons hab _ ih => exact .cons (hf.alike_some hab) ih

theorem Alike.modify (h : Alike sent xs ys) (i : Nat) {f : TurnMessage → TurnMessage}
    (hf : Blind (fun a => some (f a))) : Alike sent (xs.modify i f) (ys.modify i f) := by
  induction h generalizing i with
  | nil =>
    rw [List.modify_nil]
    exact .nil
  | cons hab htail ih =>
    cases i with
    | zero => exact .cons (hf.alike_some hab) htail
    | succ i => exact .cons hab (ih i)

theorem Alike.set (h : Alike sent xs ys) (i : Nat) {a b : TurnMessage} (hab : a.Alike sent b) :
    Alike sent (xs.set i a) (ys.set i b) := by
  induction h generalizing i with
  | nil => exact .nil
  | cons hcd htail ih =>
    cases i with
    | zero => exact .cons hab htail
    | succ i => exact .cons hcd (ih i)

theorem Alike.modifyFirst (h : Alike sent xs ys) {p : TurnMessage → Bool}
    (hp : ∀ a d, p (a.dress d) = p a) {f : TurnMessage → TurnMessage}
    (hf : ∀ a b, p a = true → a.Alike sent b → (f a).Alike sent (f b)) :
    Alike sent (modifyFirst p f xs) (modifyFirst p f ys) := by
  induction h with
  | nil => exact .nil
  | @cons a b xs ys hab htail ih =>
    rw [Lib.Js.modifyFirst,Lib.Js.modifyFirst,← hab.field hp]
    split_ifs with hpa
    · exact .cons (hf a b hpa hab) htail
    · exact .cons hab ih

theorem Alike.any_eq (h : Alike sent xs ys) {p : TurnMessage → Bool}
    (hp : ∀ a d, p (a.dress d) = p a) : xs.any p = ys.any p := by
  induction h with
  | nil => rfl
  | cons hab _ ih => rw [List.any_cons,List.any_cons,ih,hab.field hp]

theorem Alike.all_eq (h : Alike sent xs ys) {p : TurnMessage → Bool}
    (hp : ∀ a d, p (a.dress d) = p a) : xs.all p = ys.all p := by
  induction h with
  | nil => rfl
  | cons hab _ ih => rw [List.all_cons,List.all_cons,ih,hab.field hp]

theorem Alike.findIdx?_eq (h : Alike sent xs ys) {p : TurnMessage → Bool}
    (hp : ∀ a d, p (a.dress d) = p a) : xs.findIdx? p = ys.findIdx? p := by
  induction h with
  | nil => rfl
  | cons hab _ ih => rw [List.findIdx?_cons,List.findIdx?_cons,ih,hab.field hp]

theorem Alike.reverse (h : Alike sent xs ys) : Alike sent xs.reverse ys.reverse :=
  List.rel_reverse h

theorem Alike.lastIndex_eq (h : Alike sent xs ys) {p : TurnMessage → Bool}
    (hp : ∀ a d, p (a.dress d) = p a) : lastIndex p xs = lastIndex p ys := by
  unfold lastIndex
  rw [h.reverse.findIdx?_eq hp,h.length_eq]

theorem Alike.mapM_clone (h : Alike sent xs ys) {xs' : List TurnMessage}
    (hx : xs.mapM TurnMessage.clone = some xs') :
    ∃ ys', ys.mapM TurnMessage.clone = some ys' ∧ Alike sent xs' ys' := by
  induction h generalizing xs' with
  | nil =>
    simp only [List.mapM_nil] at hx
    cases hx
    exact ⟨[],rfl,.nil⟩
  | @cons a b xs ys hab _ ih =>
    rw [List.mapM_cons] at hx
    simp only [Option.bind_eq_bind,Option.bind_eq_some_iff] at hx
    obtain ⟨a',ha,rest,hrest,hx⟩ := hx
    cases hx
    obtain ⟨b',hb,hab'⟩ := hab.clone ha
    obtain ⟨rest',hrest',halike⟩ := ih hrest
    refine ⟨b' :: rest',?_,.cons hab' halike⟩
    rw [List.mapM_cons,hb,hrest']
    rfl

end Lists

section Events

variable {sent : List JsText} {xs ys : List TurnMessage}

theorem blind_adopt (tid fallbackPrompt : Value) :
    Blind (fun turn => some (TurnMessage.adopt tid fallbackPrompt turn)) :=
  blind_of (fun _ _ => rfl) (fun _ => rfl) (fun _ => rfl)

theorem Alike.getOrCreateTurn (h : Alike sent xs ys) (rt : Runtime)
    (sessionId targetTurnId fallbackPrompt : Value) :
    Alike sent (getOrCreateTurn rt sessionId xs targetTurnId fallbackPrompt).1
        (getOrCreateTurn rt sessionId ys targetTurnId fallbackPrompt).1 ∧
      (getOrCreateTurn rt sessionId xs targetTurnId fallbackPrompt).2 =
        (getOrCreateTurn rt sessionId ys targetTurnId fallbackPrompt).2 := by
  have hnewest : newestTurnId rt xs = newestTurnId rt ys := by
    unfold newestTurnId
    rw [h.getLast? (f := TurnMessage.turnId) (fun _ _ => rfl)]
  unfold App.getOrCreateTurn
  rw [hnewest,h.length_eq,h.all_eq (p := TurnMessage.placeholder) (fun _ _ => rfl)]
  generalize targetTurnId.or (newestTurnId rt ys) = tid
  dsimp only
  split_ifs with hplaceholder
  · exact ⟨h.map (blind_adopt tid fallbackPrompt),rfl⟩
  · rw [h.findIdx?_eq (p := fun turn => turn.turnId.strictEq tid) (fun _ _ => rfl),
      h.lastIndex_eq (p := TurnMessage.awaiting sessionId fallbackPrompt) (fun _ _ => rfl)]
    cases hidx : ys.findIdx? (fun turn => turn.turnId.strictEq tid) with
    | some index => exact ⟨h,rfl⟩
    | none =>
      cases hpending : lastIndex (TurnMessage.awaiting sessionId fallbackPrompt) ys with
      | some index => exact ⟨h.modify index (blind_adopt tid fallbackPrompt),rfl⟩
      | none => exact ⟨h.append (Alike.refl sent _),rfl⟩

theorem Alike.onTurn (h : Alike sent xs ys) (rt : Runtime) (sessionId turnId : Value)
    {f : TurnMessage → TurnMessage} (hf : Blind (fun a => some (f a))) :
    Alike sent (onTurn rt sessionId xs turnId f) (onTurn rt sessionId ys turnId f) := by
  obtain ⟨hrows,hindex⟩ := h.getOrCreateTurn rt sessionId turnId (.str [])
  unfold App.onTurn
  dsimp only
  rw [hindex]
  exact hrows.modify _ hf

theorem Alike.modifyNewest (h : Alike sent xs ys) {f : TurnMessage → TurnMessage}
    (hf : Blind (fun a => some (f a))) : Alike sent (modifyNewest f xs) (modifyNewest f ys) := by
  unfold App.modifyNewest
  rw [h.length_eq]
  exact h.modify _ hf

theorem Alike.applySessionStarted (h : Alike sent xs ys) (rt : Runtime) (event : EventMessage)
    (sessionId : Value) :
    Alike sent (applySessionStarted rt event sessionId xs) (applySessionStarted rt event sessionId ys) := by
  cases h with
  | nil => exact Alike.refl sent _
  | cons hab htail =>
    simp only [App.applySessionStarted,List.isEmpty_cons,Bool.and_false,Bool.false_eq_true,if_false]
    exact .cons hab htail

theorem Alike.fillInput {a b : TurnMessage} (clientRequestId : Option JsText) (prompt : JsText)
    (attachments sessionId : Value)
    (hsame : a.sameInput clientRequestId prompt sessionId = true) (h : a.Alike sent b) :
    (a.fillInput clientRequestId prompt attachments).Alike sent
      (b.fillInput clientRequestId prompt attachments) := by
  rcases h with rfl | ⟨⟨id,hid,hcid⟩,hla,hlb,d,rfl⟩
  · exact .refl sent _
  · have hkept : (clientRequestId.filter (· ≠ [])).or a.clientRequestId = a.clientRequestId := by
      cases hfilter : clientRequestId.filter (· ≠ []) with
      | none => rfl
      | some own =>
        simp only [TurnMessage.sameInput,hfilter,decide_eq_true_eq] at hsame
        rw [Option.some_or,hsame]
    have hlisted : ∀ c : TurnMessage, c.listed = true →
        (c.fillInput clientRequestId prompt attachments).listed = true := by
      intro c hc
      unfold TurnMessage.fillInput TurnMessage.listed
      dsimp only
      split_ifs with hempty
      · rw [Bool.and_eq_true] at hempty
        exact hempty.1
      · exact hc
    refine .inr ⟨⟨id,hid,hkept.trans hcid⟩,hlisted a hla,hlisted _ hlb,?_⟩
    let filled := (a.dress d).fillInput clientRequestId prompt attachments
    exact ⟨⟨filled.userAttachments,d.userTime,d.isInterjection,d.startedAt⟩,rfl⟩

theorem Alike.applySessionUserInput (h : Alike sent xs ys) (rt : Runtime) (event : EventMessage)
    (sessionId : Value) :
    Alike sent (applySessionUserInput rt event sessionId xs)
      (applySessionUserInput rt event sessionId ys) := by
  unfold App.applySessionUserInput
  dsimp only
  generalize ((eventPayload event).get "clientRequestId").text? = clientRequestId
  generalize (((eventPayload event).get "prompt").text?).getD [] = prompt
  have hp : ∀ (a : TurnMessage) d, (a.dress d).sameInput clientRequestId prompt sessionId =
      a.sameInput clientRequestId prompt sessionId := fun _ _ => rfl
  rw [h.any_eq hp]
  split_ifs
  · exact h.modifyFirst hp (fun a b hsame hab => Alike.fillInput _ _ _ sessionId hsame hab)
  · exact h.append (Alike.refl sent _)

theorem Alike.applySessionStatus (h : Alike sent xs ys) (rt : Runtime) (event : EventMessage) :
    Alike sent (applySessionStatus rt event xs) (applySessionStatus rt event ys) := by
  unfold App.applySessionStatus
  dsimp only
  generalize ((eventPayload event).get "status").or (((eventPayload event).get "turn").get "status") = st
  have hleaf : ∀ status completedAt, Blind (fun turn => some { turn with
      assistantStatus := status, completedAt := completedAt }) :=
    fun _ _ => blind_of (fun _ _ => rfl) (fun _ => rfl) (fun _ => rfl)
  have hstatus : ∀ status, Blind (fun turn => some { turn with assistantStatus := status }) :=
    fun _ => blind_of (fun _ _ => rfl) (fun _ => rfl) (fun _ => rfl)
  refine h.modifyNewest (.ite_some (fun _ _ => Iff.rfl) ?_ (.ite_some (fun _ _ => Iff.rfl) (hstatus _) ?_))
  · exact .ite_some (fun _ _ => Iff.rfl) (hstatus _) blind_id
  · refine .ite_some (fun _ _ => Iff.rfl) (hleaf _ _) (.ite_some (fun _ _ => Iff.rfl) (hleaf _ _) ?_)
    exact .ite_some (fun _ _ => Iff.rfl) (hleaf _ _) blind_id

theorem Alike.applySessionFinished (h : Alike sent xs ys) (rt : Runtime) (event : EventMessage)
    {xs' : List TurnMessage} (hx : applySessionFinished rt event xs = some xs') :
    ∃ ys', applySessionFinished rt event ys = some ys' ∧ Alike sent xs' ys' := by
  have hlast := h.getLast? (f := TurnMessage.text) (fun _ _ => rfl)
  unfold App.applySessionFinished at hx ⊢
  cases hnewest : xs.getLast? with
  | none =>
    simp only [hnewest,Option.some.injEq] at hx
    subst hx
    cases hy : ys.getLast? with
    | none => exact ⟨ys,rfl,h⟩
    | some b => simp [hnewest,hy] at hlast
  | some a =>
    cases hy : ys.getLast? with
    | none => simp [hnewest,hy] at hlast
    | some b =>
      simp only [hnewest,hy,Option.map_some,Option.some.injEq] at hlast
      simp only [hnewest,hlast,Option.bind_eq_bind,Option.bind_eq_some_iff] at hx
      obtain ⟨text,htext,hx⟩ := hx
      cases hx
      dsimp only
      rw [htext]
      exact ⟨_,rfl,h.modifyNewest (blind_of (fun _ _ => rfl) (fun _ => rfl) (fun _ => rfl))⟩

theorem Alike.applyApprovalRequested (h : Alike sent xs ys) (rt : Runtime) (event : EventMessage)
    (sessionId : Value) :
    Alike sent (applyApprovalRequested rt event sessionId xs)
      (applyApprovalRequested rt event sessionId ys) := by
  exact h.onTurn rt sessionId _ (blind_of (fun _ _ => rfl) (fun _ => rfl) (fun _ => rfl))

theorem Alike.closeApproval (h : Alike sent xs ys) (requestId : Value)
    (close : ApprovalRequest → ApprovalRequest) :
    Alike sent (closeApproval requestId close xs) (closeApproval requestId close ys) := by
  refine h.map (.ite_some (fun _ _ => Iff.rfl) ?_ blind_id)
  exact blind_of (fun _ _ => rfl) (fun _ => rfl) (fun _ => rfl)

theorem Alike.applyApprovalResolved (h : Alike sent xs ys) (rt : Runtime) (event : EventMessage) :
    Alike sent (applyApprovalResolved rt event xs) (applyApprovalResolved rt event ys) := by
  exact Alike.ite (h.closeApproval _ _) h

theorem Alike.applyApprovalExpired (h : Alike sent xs ys) (rt : Runtime) (event : EventMessage) :
    Alike sent (applyApprovalExpired rt event xs) (applyApprovalExpired rt event ys) := by
  exact Alike.ite (h.closeApproval _ _) h

theorem blind_bind_tools {f : TurnMessage → Option (List ToolItem)} {g : List ToolItem → List ToolItem}
    (hf : ∀ a d, f (a.dress d) = f a) :
    Blind (fun turn => (f turn).bind (fun tools => some { turn with tools := g tools })) where
  dress a d := by
    rw [hf a d]
    cases f a <;> rfl
  kept a b hb := by
    obtain ⟨tools,-,hb⟩ := Option.bind_eq_some_iff.mp hb
    cases hb
    exact ⟨rfl,rfl⟩

theorem blind_outputDelta (rt : Runtime) (payload jsonPayload : Value) :
    Blind (outputDelta rt payload jsonPayload) := by
  refine .ite (fun _ _ => Iff.rfl) ?_ (.ite (fun _ _ => Iff.rfl) ?_ ?_)
  · exact blind_bind_tools (g := id) (fun _ _ => rfl)
  · exact blind_bind_tools (g := List.reverse) (fun _ _ => rfl)
  · exact blind_of (fun _ _ => rfl) (fun _ => rfl) (fun _ => rfl)

theorem blind_completedUserMessage (rt : Runtime) (item : Value) :
    Blind (completedUserMessage rt item) := by
  unfold completedUserMessage
  cases contentText rt item (((item.get "text").text?).getD []) with
  | none => exact ⟨fun _ _ => rfl,fun _ _ hb => by cases hb⟩
  | some userText =>
    refine .ite_some (fun _ _ => Iff.rfl) ?_ blind_id
    exact blind_of (fun _ _ => rfl) (fun _ => rfl) (fun _ => rfl)

theorem blind_completedReasoning (rt : Runtime) (item : Value) : Blind (completedReasoning rt item) := by
  unfold completedReasoning
  cases contentText rt item [] with
  | none => exact ⟨fun _ _ => rfl,fun _ _ hb => by cases hb⟩
  | some reasoning => exact blind_of (fun _ _ => rfl) (fun _ => rfl) (fun _ => rfl)

theorem blind_completedCommand (rt : Runtime) (item : Value) :
    Blind (fun turn => some (completedCommand rt item turn)) := by
  refine .ite_some (fun _ _ => Iff.rfl) ?_ (.ite_some (fun _ _ => Iff.rfl) ?_ ?_)
  · exact blind_of (fun _ _ => rfl) (fun _ => rfl) (fun _ => rfl)
  · exact blind_of (fun _ _ => rfl) (fun _ => rfl) (fun _ => rfl)
  · exact blind_of (fun _ _ => rfl) (fun _ => rfl) (fun _ => rfl)

theorem blind_completedFileChange (rt : Runtime) (item : Value) : Blind (completedFileChange rt item) :=
  blind_bind_tools (g := id) (fun _ _ => rfl)

theorem blind_itemCompleted (rt : Runtime) (jsonPayload : Value) : Blind (itemCompleted rt jsonPayload) := by
  unfold itemCompleted
  refine .ite (fun _ _ => Iff.rfl) (blind_completedUserMessage rt _) ?_
  refine .ite (fun _ _ => Iff.rfl) (blind_completedReasoning rt _) ?_
  refine .ite (fun _ _ => Iff.rfl) (blind_completedCommand rt _) ?_
  refine .ite (fun _ _ => Iff.rfl) (blind_completedFileChange rt _) ?_
  refine .ite (fun _ _ => Iff.rfl) ?_ blind_id
  exact blind_of (fun _ _ => rfl) (fun _ => rfl) (fun _ => rfl)

theorem blind_agentMessageDelta (rt : Runtime) (payload : Value) : Blind (agentMessageDelta rt payload) := by
  unfold agentMessageDelta
  cases (payload.get "chunk").text? with
  | none => exact blind_id
  | some chunk =>
    refine ⟨?_,?_⟩
    · intro a d
      dsimp only [TurnMessage.dress]
      cases rt.textOf a.text <;> rfl
    · intro a b hb
      obtain ⟨text,-,hb⟩ := Option.bind_eq_some_iff.mp hb
      cases hb
      exact ⟨rfl,rfl⟩

theorem blind_diffUpdated (jsonPayload : Value) :
    Blind (fun turn => some (diffUpdated jsonPayload turn)) := by
  unfold diffUpdated
  cases (jsonPayload.get "diff").text? with
  | none => exact blind_id
  | some diff =>
    refine .ite_some (fun _ _ => Iff.rfl) ?_ blind_id
    exact blind_of (fun _ _ => rfl) (fun _ => rfl) (fun _ => rfl)

theorem blind_outputOnTurn (rt : Runtime) (payload : Value) : Blind (outputOnTurn rt payload) := by
  unfold outputOnTurn
  refine .ite (fun _ _ => Iff.rfl) (blind_agentMessageDelta rt payload) ?_
  refine .ite (fun _ _ => Iff.rfl) (blind_outputDelta rt payload _) ?_
  refine .ite (fun _ _ => Iff.rfl) (blind_itemCompleted rt _) ?_
  refine .ite (fun _ _ => Iff.rfl) (blind_diffUpdated _) ?_
  refine .ite (fun _ _ => Iff.rfl) (.ite_some (fun _ _ => Iff.rfl) ?_ blind_id) blind_id
  exact blind_of (fun _ _ => rfl) (fun _ => rfl) (fun _ => rfl)

theorem Alike.applySessionOutput (h : Alike sent xs ys) (rt : Runtime) (event : EventMessage)
    (sessionId : Value) {xs' : List TurnMessage} (hx : applySessionOutput rt event sessionId xs = some xs') :
    ∃ ys', applySessionOutput rt event sessionId ys = some ys' ∧ Alike sent xs' ys' := by
  unfold App.applySessionOutput at hx ⊢
  simp only [Option.bind_eq_bind,Option.bind_eq_some_iff] at hx
  obtain ⟨a,ha,a',ha',hx⟩ := hx
  cases hx
  obtain ⟨hrows,hindex⟩ := h.getOrCreateTurn rt sessionId ((eventPayload event).get "turnId") (.str [])
  obtain ⟨b,hb,hab⟩ := hrows.getElem? ha
  obtain ⟨b',hb',hab'⟩ := (blind_outputOnTurn rt (eventPayload event)).alike hab ha'
  rw [hindex] at hb
  refine ⟨_,?_,hrows.set _ hab'⟩
  simp only [hb,hb',hindex,Option.bind_eq_bind,Option.bind_some]
  rfl

/-- One event on two transcripts that are alike leaves them alike. -/
theorem Alike.applyLiveEventToTurns (h : Alike sent xs ys) (js : Engine) (event : EventMessage)
    (session : Option Session) {xs' : List TurnMessage}
    (hx : applyLiveEventToTurns js xs event session = some xs') :
    ∃ ys', applyLiveEventToTurns js ys event session = some ys' ∧ Alike sent xs' ys' := by
  unfold App.applyLiveEventToTurns at hx ⊢
  simp only [Option.bind_eq_bind,Option.bind_eq_some_iff] at hx
  obtain ⟨copy,hcopy,hx⟩ := hx
  obtain ⟨copy',hcopy',halike⟩ := h.mapM_clone hcopy
  rw [hcopy',Option.bind_eq_bind,Option.bind_some]
  dsimp only
  generalize js.at event.moment = rt at hx ⊢
  generalize currentSessionId rt event session = sessionId at hx ⊢
  cases htype : event.type with
  | sessionStarted =>
    rw [htype] at hx
    cases hx
    exact ⟨_,rfl,halike.applySessionStarted rt event sessionId⟩
  | sessionUserInput =>
    rw [htype] at hx
    cases hx
    exact ⟨_,rfl,halike.applySessionUserInput rt event sessionId⟩
  | sessionStatus =>
    rw [htype] at hx
    cases hx
    exact ⟨_,rfl,halike.applySessionStatus rt event⟩
  | sessionFinished =>
    rw [htype] at hx
    exact halike.applySessionFinished rt event hx
  | approvalRequested =>
    rw [htype] at hx
    cases hx
    exact ⟨_,rfl,halike.applyApprovalRequested rt event sessionId⟩
  | approvalResolved =>
    rw [htype] at hx
    cases hx
    exact ⟨_,rfl,halike.applyApprovalResolved rt event⟩
  | approvalExpired =>
    rw [htype] at hx
    cases hx
    exact ⟨_,rfl,halike.applyApprovalExpired rt event⟩
  | subagentStarted =>
    rw [htype] at hx
    cases hx
    exact ⟨_,rfl,halike.onTurn rt sessionId _ (blind_of (fun _ _ => rfl) (fun _ => rfl) (fun _ => rfl))⟩
  | subagentTool =>
    rw [htype] at hx
    cases hx
    exact ⟨_,rfl,halike.onTurn rt sessionId _ (blind_of (fun _ _ => rfl) (fun _ => rfl) (fun _ => rfl))⟩
  | subagentFinished =>
    rw [htype] at hx
    cases hx
    exact ⟨_,rfl,halike.onTurn rt sessionId _ (blind_of (fun _ _ => rfl) (fun _ => rfl) (fun _ => rfl))⟩
  | sessionOutput =>
    rw [htype] at hx
    exact halike.applySessionOutput rt event sessionId hx
  | other name =>
    rw [htype] at hx
    cases hx
    exact ⟨copy',rfl,halike⟩

end Events

end CodeHarbor.App
