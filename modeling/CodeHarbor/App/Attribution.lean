import CodeHarbor.App.Faces
set_option autoImplicit false

namespace CodeHarbor.App
open Lib Lib.Js

/-! What holds after every event. -/

def Apart (ids : List Value) : Prop := ids.Pairwise (fun a b => a.strictEq b = false)

/-- No two rows have the same request. The empty text is no request. -/
def OneEach (requests : List (Option JsText)) : Prop :=
  requests.Pairwise (fun a b => ∀ id, id ≠ [] → a = some id → b ≠ some id)

/-- Every row of the turn has the text, and there is one unless the text is empty. -/
def Answers (t text : JsText) (faces : List Face) : Prop :=
  (∀ face ∈ faces, face.turnId = .str t → face.text = .str text) ∧
    (text ≠ [] → ∃ face ∈ faces, face.turnId = .str t)

def Blank (faces : List Face) : Prop :=
  ∀ face ∈ faces, face.text.truthy = false → face.text = .str []

section Opening

variable {tid : Value} {faces pre post : List Face} {face : Face}

theorem Opens.apart (h : Opens tid faces pre face post) (ha : Apart (faces.map Face.turnId)) :
    Apart ((pre ++ face :: post).map Face.turnId) := by
  have hcomm : ∀ {v w : Value}, v.strictEq w = false → w.strictEq v = false := by
    intro v w hvw
    rw [Value.strictEq_comm]
    exact hvw
  cases h with
  | found _ => exact ha
  | renamed hempty hothers =>
    unfold Apart at ha ⊢
    rw [List.map_append,List.map_cons,List.pairwise_middle hcomm,List.pairwise_cons] at ha ⊢
    refine ⟨?_,ha.2⟩
    intro id hid
    rw [← List.map_append] at hid
    obtain ⟨other,hother,rfl⟩ := List.mem_map.mp hid
    exact hcomm (hothers other hother)
  | added hothers =>
    unfold Apart at ha ⊢
    rw [List.map_append,List.pairwise_append]
    refine ⟨ha,by simp,?_⟩
    intro id hid new hnew
    obtain ⟨other,hother,rfl⟩ := List.mem_map.mp hid
    rw [List.map_singleton,List.mem_singleton] at hnew
    subst hnew
    exact hothers other hother

/-- A row with the id of the turn that had another one before, or is new. -/
structure Adopted (tid : Value) (faces : List Face) (f : Face) : Prop where
  turnId : f.turnId = tid
  empty : f.text.truthy = false
  source : (∃ old ∈ faces, old.text = f.text ∧ old.clientRequestId = f.clientRequestId) ∨
    (f.text = .str [] ∧ f.clientRequestId = none)
  alone : ∀ g ∈ faces, g.text.truthy = true → g.turnId.strictEq tid = false

theorem Opens.mem (h : Opens tid faces pre face post) {f : Face} (hf : f ∈ pre ++ face :: post) :
    f ∈ faces ∨ Adopted tid faces f := by
  cases h with
  | found _ => exact .inl hf
  | @renamed pre post old hempty hothers =>
    rw [List.mem_append,List.mem_cons] at hf
    rcases hf with hpre | rfl | hpost
    · exact .inl (List.mem_append_left _ hpre)
    · refine .inr ⟨rfl,hempty,.inl ⟨old,by simp,rfl,rfl⟩,?_⟩
      intro g hg htext
      rw [List.mem_append,List.mem_cons] at hg
      rcases hg with hpre | rfl | hpost
      · exact hothers g (List.mem_append_left _ hpre)
      · simp [hempty] at htext
      · exact hothers g (List.mem_append_right _ hpost)
    · exact .inl (List.mem_append_right _ (List.mem_cons_of_mem _ hpost))
  | added hothers =>
    rw [List.mem_append,List.mem_singleton] at hf
    rcases hf with hold | rfl
    · exact .inl hold
    · exact .inr ⟨rfl,rfl,.inr ⟨rfl,rfl⟩,fun g hg _ => hothers g hg⟩

theorem Opens.requests (h : Opens tid faces pre face post)
    (hone : OneEach (faces.map Face.clientRequestId)) :
    OneEach ((pre ++ face :: post).map Face.clientRequestId) := by
  cases h with
  | found _ => exact hone
  | renamed _ _ =>
    rw [List.map_append,List.map_cons] at hone ⊢
    exact hone
  | added _ =>
    unfold OneEach at hone ⊢
    rw [List.map_append,List.pairwise_append]
    refine ⟨hone,by simp,?_⟩
    intro a _ b hb id _ _
    rw [List.map_singleton,List.mem_singleton] at hb
    simp [hb]

theorem Opens.blank (h : Opens tid faces pre face post) (hblank : Blank faces) :
    Blank (pre ++ face :: post) := by
  intro f hf hempty
  rcases h.mem hf with hold | ⟨-,-,⟨old,hold,htext,-⟩ | ⟨htext,-⟩,-⟩
  · exact hblank f hold hempty
  · rw [← htext] at hempty ⊢
    exact hblank old hold hempty
  · exact htext

theorem Opens.stays (h : Opens tid faces pre face post) {f : Face} (hf : f ∈ faces)
    (htext : f.text.truthy = true) : f ∈ pre ++ face :: post := by
  cases h with
  | found _ => exact hf
  | renamed hempty _ =>
    rw [List.mem_append,List.mem_cons] at hf ⊢
    rcases hf with hpre | rfl | hpost
    · exact .inl hpre
    · simp [hempty] at htext
    · exact .inr (.inr hpost)
  | added _ => exact List.mem_append_left _ hf

/-- Only a row without a text takes an id over, and only when no other has it. -/
theorem Opens.answers (h : Opens tid faces pre face post) (hblank : Blank faces) {t text : JsText}
    (hanswers : Answers t text faces) : Answers t text (pre ++ face :: post) := by
  constructor
  · intro f hf hid
    rcases h.mem hf with hold | ⟨htid,hempty,-,halone⟩
    · exact hanswers.1 f hold hid
    · rw [h.blank hblank f hf hempty]
      by_contra hne
      have hsome : text ≠ [] := by
        rintro rfl
        exact hne rfl
      obtain ⟨g,hg,hgid⟩ := hanswers.2 hsome
      have hsame : g.turnId.strictEq tid = true := by
        rw [← htid,hid,hgid,Value.strictEq_str]
      have hother := halone g hg (by rw [hanswers.1 g hg hgid]; simpa using hsome)
      rw [hsame] at hother
      cases hother
  · intro hsome
    obtain ⟨g,hg,hgid⟩ := hanswers.2 hsome
    refine ⟨g,h.stays hg ?_,hgid⟩
    rw [hanswers.1 g hg hgid]
    simpa using hsome

theorem Opens.turnId (h : Opens tid faces pre face post) :
    face.turnId = tid ∨ face.turnId.strictEq tid = true := by
  cases h with
  | found hid => exact .inr hid
  | renamed _ _ => exact .inl rfl
  | added _ => exact .inl rfl

theorem Opens.turnId_ne (h : Opens tid faces pre face post) {t : JsText} (ht : tid ≠ .str t) :
    face.turnId ≠ .str t := by
  intro heq
  rcases h.turnId with hid | hid
  · exact ht (hid.symm.trans heq)
  · rw [heq,Value.strictEq_comm,Value.strictEq_str] at hid
    exact ht hid

theorem Opens.turnId_str {t : JsText} (h : Opens (.str t) faces pre face post) : face.turnId = .str t := by
  rcases h.turnId with hid | hid
  · exact hid
  · exact Value.strictEq_str.mp hid

end Opening

section Texts

variable {pre post : List Face} {face : Face} {text : Value}

theorem map_turnId_text : (pre ++ { face with text := text } :: post).map Face.turnId =
    (pre ++ face :: post).map Face.turnId := by
  simp

theorem map_clientRequestId_text :
    (pre ++ { face with text := text } :: post).map Face.clientRequestId =
      (pre ++ face :: post).map Face.clientRequestId := by
  simp

theorem Blank.set (h : Blank (pre ++ face :: post)) (htext : text.truthy = false → text = .str []) :
    Blank (pre ++ { face with text := text } :: post) := by
  intro f hf hempty
  rw [List.mem_append,List.mem_cons] at hf
  rcases hf with hpre | rfl | hpost
  · exact h f (List.mem_append_left _ hpre) hempty
  · exact htext hempty
  · exact h f (List.mem_append_right _ (List.mem_cons_of_mem _ hpost)) hempty

theorem Answers.other {t told : JsText} (h : Answers t told (pre ++ face :: post))
    (hface : face.turnId ≠ .str t) : Answers t told (pre ++ { face with text := text } :: post) := by
  constructor
  · intro f hf hid
    rw [List.mem_append,List.mem_cons] at hf
    rcases hf with hpre | rfl | hpost
    · exact h.1 f (List.mem_append_left _ hpre) hid
    · exact absurd hid hface
    · exact h.1 f (List.mem_append_right _ (List.mem_cons_of_mem _ hpost)) hid
  · intro hsome
    obtain ⟨g,hg,hid⟩ := h.2 hsome
    rw [List.mem_append,List.mem_cons] at hg
    rcases hg with hpre | rfl | hpost
    · exact ⟨g,List.mem_append_left _ hpre,hid⟩
    · exact absurd hid hface
    · exact ⟨g,List.mem_append_right _ (List.mem_cons_of_mem _ hpost),hid⟩

theorem Apart.only (h : Apart ((pre ++ face :: post).map Face.turnId)) {f : Face} (hf : f ∈ pre ++ post) :
    f.turnId.strictEq face.turnId = false := by
  unfold Apart at h
  rw [List.map_append,List.map_cons,List.pairwise_append,List.pairwise_cons] at h
  rcases List.mem_append.mp hf with hpre | hpost
  · exact h.2.2 _ (List.mem_map_of_mem hpre) _ List.mem_cons_self
  · rw [Value.strictEq_comm]
    exact h.2.1.1 _ (List.mem_map_of_mem hpost)

theorem Apart.answers (h : Apart ((pre ++ face :: post).map Face.turnId)) {t : JsText}
    (hface : face.turnId = .str t) (told : JsText) :
    Answers t told (pre ++ { face with text := .str told } :: post) := by
  have hothers : ∀ f ∈ pre ++ post, f.turnId ≠ .str t := by
    intro f hf hid
    have hne := h.only hf
    rw [hface,hid,Value.strictEq_str.mpr rfl] at hne
    cases hne
  constructor
  · intro f hf hid
    rw [List.mem_append,List.mem_cons] at hf
    rcases hf with hpre | rfl | hpost
    · exact absurd hid (hothers f (List.mem_append_left _ hpre))
    · rfl
    · exact absurd hid (hothers f (List.mem_append_right _ hpost))
  · intro _
    exact ⟨_,List.mem_append_right _ List.mem_cons_self,hface⟩

end Texts

section Histories

variable {js : Engine} {t : JsText} {events : List EventMessage} {event : EventMessage}

theorem told_snoc : told t (events ++ [event]) = told t events ++ event.chunk t := by
  simp [told]

/-- One more event: before the first piece of the turn it gives its row no text. -/
theorem unpreempted_snoc (h : unpreempted js t (events ++ [event]) = true) :
    unpreempted js t events = true ∧
      (told t events = [] → event.chunk t = [] → event.preempts js t = false) := by
  unfold unpreempted at h ⊢
  rw [List.takeWhile_append] at h
  split_ifs at h with hall
  · have hsame : events.takeWhile (fun event => event.chunk t = []) = events :=
      (List.takeWhile_prefix _).eq_of_length hall
    rw [hsame]
    rw [List.all_append,Bool.and_eq_true] at h
    refine ⟨h.1,?_⟩
    intro _ hchunk
    simpa [hchunk] using h.2
  · refine ⟨h,?_⟩
    intro htold
    have hchunks : ∀ e ∈ events, e.chunk t = [] := List.flatMap_eq_nil_iff.mp htold
    have hsame : events.takeWhile (fun event => event.chunk t = []) = events := by
      rw [List.takeWhile_eq_self_iff]
      simpa using hchunks
    exact absurd (by rw [hsame]) hall

theorem EventMessage.chunk_of_type (h : event.type ≠ .sessionOutput) (t : JsText) : event.chunk t = [] := by
  apply EventMessage.chunk_of_not_delta
  simp [isDelta,h]

end Histories

def knownTurnIds (js : Engine) (events : List EventMessage) : List Value :=
  placeholderIds ++ events.flatMap (EventMessage.turnIds js)

/-- The ids and requests of the rows come from the events, each to one row. -/
structure Standing (js : Engine) (events : List EventMessage) (faces : List Face) : Prop where
  apart : Apart (faces.map Face.turnId)
  known : ∀ face ∈ faces, face.turnId ∈ knownTurnIds js events
  requests : OneEach (faces.map Face.clientRequestId)
  carried : ∀ face ∈ faces, ∀ id, face.clientRequestId = some id →
    ∃ event ∈ events, event.type = .sessionUserInput ∧ event.clientRequestId = some id
  blank : Blank faces

structure Attributed (js : Engine) (events : List EventMessage) (faces : List Face) : Prop
    extends Standing js events faces where
  answers : ∀ t, unpreempted js t events = true → Answers t (told t events) faces

/-- What the gateway promises of the event after these. -/
structure Next (js : Engine) (events : List EventMessage) (event : EventMessage) : Prop where
  piece : event.isDelta = true → ∃ t, t ≠ [] ∧ (eventPayload event).get "turnId" = .str t
  input : event.type = .sessionUserInput → ((eventPayload event).get "turnId").truthy = false
  fresh : event.type = .sessionUserInput →
    ∀ id ∈ knownTurnIds js events, id.strictEq event.generatedTurnId = false

theorem GatewaySent.next {js : Engine} {pre post : List EventMessage} {event : EventMessage}
    (h : GatewaySent js (pre ++ event :: post)) : Next js pre event := by
  have hmem : event ∈ pre ++ event :: post := by simp
  refine ⟨h.pieces event hmem,h.inputs event hmem,?_⟩
  intro htype id hid
  rcases List.mem_append.mp hid with hplaceholder | hearlier
  · exact h.fresh_placeholder event hmem htype id hplaceholder
  · obtain ⟨earlier,hpre,hid⟩ := List.mem_flatMap.mp hearlier
    have hbefore := (List.pairwise_append.mp h.fresh).2.2 earlier hpre event List.mem_cons_self
    exact hbefore htype id hid

section Steps

variable {js : Engine} {events : List EventMessage} {event : EventMessage} {faces : List Face}

theorem knownTurnIds_snoc : knownTurnIds js (events ++ [event]) =
    knownTurnIds js events ++ event.turnIds js := by
  simp [knownTurnIds]

theorem Standing.mono (h : Standing js events faces) (event : EventMessage) :
    Standing js (events ++ [event]) faces := by
  refine ⟨h.apart,?_,h.requests,?_,h.blank⟩
  · intro face hface
    rw [knownTurnIds_snoc]
    exact List.mem_append_left _ (h.known face hface)
  · intro face hface id hid
    obtain ⟨e,he,hinput⟩ := h.carried face hface id hid
    exact ⟨e,List.mem_append_left _ he,hinput⟩

theorem Standing.set {pre post : List Face} {face : Face} {text : Value}
    (h : Standing js events (pre ++ face :: post)) (htext : text.truthy = false → text = .str []) :
    Standing js events (pre ++ { face with text := text } :: post) := by
  have hmem : ∀ f ∈ pre ++ { face with text := text } :: post, ∃ g ∈ pre ++ face :: post,
      g.turnId = f.turnId ∧ g.clientRequestId = f.clientRequestId := by
    intro f hf
    rw [List.mem_append,List.mem_cons] at hf
    rcases hf with hpre | rfl | hpost
    · exact ⟨f,List.mem_append_left _ hpre,rfl,rfl⟩
    · exact ⟨face,List.mem_append_right _ List.mem_cons_self,rfl,rfl⟩
    · exact ⟨f,List.mem_append_right _ (List.mem_cons_of_mem _ hpost),rfl,rfl⟩
  refine ⟨?_,?_,?_,?_,h.blank.set htext⟩
  · rw [map_turnId_text]
    exact h.apart
  · intro f hf
    obtain ⟨g,hg,hid,-⟩ := hmem f hf
    rw [← hid]
    exact h.known g hg
  · rw [map_clientRequestId_text]
    exact h.requests
  · intro f hf id hid
    obtain ⟨g,hg,-,hsame⟩ := hmem f hf
    exact h.carried g hg id (hsame.trans hid)

theorem Standing.target (h : Standing js events faces) (htype : event.type ≠ .sessionUserInput) :
    event.target js faces ∈ knownTurnIds js (events ++ [event]) := by
  have hids : event.turnIds js = [event.named js,event.clockTurnId] := if_neg htype
  rw [knownTurnIds_snoc,hids]
  unfold EventMessage.target
  by_cases hnamed : (event.named js).truthy = true
  · rw [Value.or_of_truthy hnamed]
    simp
  · rw [Value.or_of_falsy (by simpa using hnamed)]
    cases hlast : faces.getLast? with
    | none => simp
    | some face => exact List.mem_append_left _ (h.known face (List.mem_of_getLast? hlast))

theorem Standing.opens (h : Standing js events faces) (htype : event.type ≠ .sessionUserInput)
    {pre post : List Face} {face : Face} (ho : Opens (event.target js faces) faces pre face post) :
    Standing js (events ++ [event]) (pre ++ face :: post) := by
  have hlater := h.mono event
  refine ⟨ho.apart h.apart,?_,ho.requests h.requests,?_,ho.blank h.blank⟩
  · intro f hf
    rcases ho.mem hf with hold | hadopted
    · exact hlater.known f hold
    · rw [hadopted.turnId]
      exact h.target htype
  · intro f hf id hid
    rcases ho.mem hf with hold | ⟨-,-,⟨old,hold,-,hsame⟩ | ⟨-,hnone⟩,-⟩
    · exact hlater.carried f hold id hid
    · exact hlater.carried old hold id (hsame.trans hid)
    · rw [hnone] at hid
      cases hid

theorem Standing.input (h : Standing js events faces) (hnext : Next js events event)
    (htype : event.type = .sessionUserInput)
    (hnew : ∀ id, id ≠ [] → event.clientRequestId = some id →
      ∀ face ∈ faces, face.clientRequestId ≠ some id) :
    Standing js (events ++ [event]) (faces ++ [⟨event.generatedTurnId,.str [],event.clientRequestId⟩]) := by
  have hlater := h.mono event
  have hids : event.turnIds js = [event.generatedTurnId] := if_pos htype
  refine ⟨?_,?_,?_,?_,?_⟩
  · rw [List.map_append,Apart,List.pairwise_append]
    refine ⟨h.apart,by simp,?_⟩
    intro id hid new hnewId
    obtain ⟨face,hface,rfl⟩ := List.mem_map.mp hid
    rw [List.map_singleton,List.mem_singleton] at hnewId
    subst hnewId
    exact hnext.fresh htype _ (h.known face hface)
  · intro face hface
    rw [List.mem_append,List.mem_singleton] at hface
    rcases hface with hold | rfl
    · exact hlater.known face hold
    · rw [knownTurnIds_snoc,hids]
      simp
  · rw [List.map_append,OneEach,List.pairwise_append]
    refine ⟨h.requests,by simp,?_⟩
    intro old hold new hnewId id hne hid hsame
    obtain ⟨face,hface,rfl⟩ := List.mem_map.mp hold
    rw [List.map_singleton,List.mem_singleton] at hnewId
    exact hnew id hne (hnewId.symm.trans hsame) face hface hid
  · intro face hface id hid
    rw [List.mem_append,List.mem_singleton] at hface
    rcases hface with hold | rfl
    · exact hlater.carried face hold id hid
    · exact ⟨event,by simp,htype,hid⟩
  · intro face hface hempty
    rw [List.mem_append,List.mem_singleton] at hface
    rcases hface with hold | rfl
    · exact h.blank face hold hempty
    · rfl

theorem Output.blank {old text : Value} (h : Output js event old text)
    (hold : old.truthy = false → old = .str []) : text.truthy = false → text = .str [] := by
  cases h with
  | same _ => exact hold
  | piece _ _ _ =>
    intro hempty
    simp only [Value.truthy_str,decide_eq_false_iff_not,not_not] at hempty
    rw [hempty]
  | message _ _ _ htext =>
    intro hempty
    rw [htext] at hempty
    cases hempty

theorem Answers.turnId_ne {t text : JsText} {faces : List Face} (h : Answers t text faces)
    (htext : text ≠ []) {face : Face} (hface : face ∈ faces) (hempty : face.text.truthy = false) :
    face.turnId ≠ .str t := by
  intro hid
  rw [h.1 face hface hid] at hempty
  simp [htext] at hempty

theorem Answers.snoc {t text : JsText} {faces : List Face} (h : Answers t text faces) {new : Face}
    (hblank : new.text = .str []) (hfresh : ∀ g ∈ faces, g.turnId.strictEq new.turnId = false) :
    Answers t text (faces ++ [new]) := by
  constructor
  · intro face hface hid
    rw [List.mem_append,List.mem_singleton] at hface
    rcases hface with hold | rfl
    · exact h.1 face hold hid
    · have hnone : text = [] := by
        by_contra hsome
        obtain ⟨g,hg,hgid⟩ := h.2 hsome
        have hother := hfresh g hg
        rw [hid,hgid,Value.strictEq_str.mpr rfl] at hother
        cases hother
      rw [hblank,hnone]
  · intro hsome
    obtain ⟨g,hg,hgid⟩ := h.2 hsome
    exact ⟨g,List.mem_append_left _ hg,hgid⟩

theorem EventMessage.named_of_output (htype : event.type = .sessionOutput) :
    event.named js = (eventPayload event).get "turnId" := by
  unfold named
  rw [htype]

theorem EventMessage.target_ne {t : JsText} (hmessage : event.completesMessage js = true)
    (h : event.preempts js t = false) : event.target js faces ≠ .str t := by
  simp only [preempts,hmessage,Bool.true_and,Bool.or_eq_false_iff,Bool.not_eq_false'] at h
  obtain ⟨-,htruthy,hother⟩ := h
  rw [target,Value.or_of_truthy htruthy]
  intro heq
  rw [heq,Value.strictEq_str.mpr rfl] at hother
  cases hother

theorem Attributed.output (h : Attributed js events faces) (hnext : Next js events event)
    (htype : event.type = .sessionOutput) {pre post : List Face} {face : Face} {text : Value}
    (ho : Opens (event.target js faces) faces pre face post) (hout : Output js event face.text text) :
    Attributed js (events ++ [event]) (pre ++ { face with text := text } :: post) := by
  have hstanding := h.toStanding.opens (by rw [htype]; decide) ho
  have hface : face ∈ pre ++ face :: post := List.mem_append_right _ List.mem_cons_self
  refine ⟨hstanding.set (hout.blank (hstanding.blank face hface)),?_⟩
  intro t ht
  obtain ⟨ht,hpreempts⟩ := unpreempted_snoc ht
  have hanswers := ho.answers h.blank (h.answers t ht)
  rw [told_snoc]
  cases hout with
  | same hchunk =>
    rw [hchunk t,List.append_nil]
    exact hanswers
  | @piece before chunk hdelta hchunk hbefore =>
    obtain ⟨u,hu,hturn⟩ := hnext.piece hdelta
    have htarget : event.target js faces = .str u := by
      rw [EventMessage.target,EventMessage.named_of_output htype,hturn,Value.or_of_truthy (by simpa using hu)]
    rw [htarget] at ho
    have hid := ho.turnId_str
    by_cases htu : u = t
    · subst htu
      have hown : event.chunk u = chunk := by
        simp [EventMessage.chunk,hdelta,hturn,Value.strictEq,hchunk]
      rw [hanswers.1 face hface hid,Runtime.textOf,Option.some.injEq] at hbefore
      rw [hown,← hbefore]
      exact hstanding.apart.answers hid _
    · have hother : event.chunk t = [] := by
        simp [EventMessage.chunk,hturn,Value.strictEq,htu]
      rw [hother,List.append_nil]
      refine hanswers.other ?_
      rw [hid]
      exact fun heq => htu (Value.str.inj heq)
  | message hmessage hchunk hempty htruthy =>
    rw [hchunk t,List.append_nil]
    refine hanswers.other ?_
    by_cases htold : told t events = []
    · exact ho.turnId_ne (EventMessage.target_ne hmessage (hpreempts htold (hchunk t)))
    · exact hanswers.turnId_ne htold hface hempty

theorem Attributed.step (h : Attributed js events faces) (hnext : Next js events event)
    {faces' : List Face} (he : Effect js event faces faces') :
    Attributed js (events ++ [event]) faces' := by
  -- an event other than an output adds nothing to any answer
  have hquiet : event.type ≠ .sessionOutput → ∀ t, unpreempted js t (events ++ [event]) = true →
      told t (events ++ [event]) = told t events ∧ Answers t (told t events) faces := by
    intro htype t ht
    refine ⟨?_,h.answers t (unpreempted_snoc ht).1⟩
    rw [told_snoc,EventMessage.chunk_of_type htype,List.append_nil]
  cases he with
  | same htype =>
    refine ⟨h.toStanding.mono event,?_⟩
    intro t ht
    rw [(hquiet htype t ht).1]
    exact (hquiet htype t ht).2
  | started htype =>
    have hother : event.type ≠ .sessionOutput := by
      rw [htype]
      decide
    have hknown : Value.lit "turn-0" ∈ knownTurnIds js (events ++ [event]) :=
      List.mem_append_left _ List.mem_cons_self
    refine ⟨⟨by simp [Apart],by simpa using hknown,by simp [OneEach],by simp,by simp [Blank]⟩,?_⟩
    intro t ht
    obtain ⟨htold,hanswers⟩ := hquiet hother t ht
    have hnone : told t events = [] := by
      by_contra hsome
      obtain ⟨face,hface,-⟩ := hanswers.2 hsome
      cases hface
    rw [htold,hnone]
    exact ⟨by simp,by simp⟩
  | input htype hnew =>
    have hother : event.type ≠ .sessionOutput := by
      rw [htype]
      decide
    rw [Value.or_of_falsy (hnext.input htype)]
    refine ⟨h.toStanding.input hnext htype hnew,?_⟩
    intro t ht
    obtain ⟨htold,hanswers⟩ := hquiet hother t ht
    rw [htold]
    exact hanswers.snoc rfl (fun g hg => hnext.fresh htype g.turnId (h.known g hg))
  | @finished pre face text hfinishes hempty htruthy =>
    have htype : event.type = .sessionFinished := by
      have hboth := Bool.and_eq_true_iff.mp hfinishes
      simpa using hboth.1
    have hother : event.type ≠ .sessionOutput := by
      rw [htype]
      decide
    have hface : face ∈ pre ++ [face] := List.mem_append_right _ List.mem_cons_self
    refine ⟨(h.toStanding.mono event).set ?_,?_⟩
    · intro hfalse
      rw [htruthy] at hfalse
      cases hfalse
    · intro t ht
      obtain ⟨htold,hanswers⟩ := hquiet hother t ht
      have hsome : told t events ≠ [] := by
        intro hnone
        have hquietly := (unpreempted_snoc ht).2 hnone (EventMessage.chunk_of_type hother t)
        simp [EventMessage.preempts,hfinishes] at hquietly
      rw [htold]
      exact hanswers.other (hanswers.turnId_ne hsome hface hempty)
  | opened htype hinput ho =>
    refine ⟨h.toStanding.opens hinput ho,?_⟩
    intro t ht
    obtain ⟨htold,hanswers⟩ := hquiet htype t ht
    rw [htold]
    exact ho.answers h.blank hanswers
  | output htype ho hout => exact h.output hnext htype ho hout

end Steps

theorem attributed_seed (js : Engine) (start : Moment) (events : List EventMessage)
    (session : Option Session) :
    Attributed js [] ((seedTurns (js.at start) events session).map TurnMessage.face) := by
  have hnone : Attributed js [] [] :=
    ⟨⟨.nil,by simp,.nil,by simp,by simp [Blank]⟩,fun t _ => ⟨by simp,by simp [told]⟩⟩
  have hone : ∀ session, Attributed js [] [(initialTurn (js.at start) session).face] := by
    intro session
    have hknown : Value.lit "initial-turn" ∈ knownTurnIds js [] := by
      simp [knownTurnIds,placeholderIds]
    refine ⟨⟨by simp [Apart],?_,by simp [OneEach],?_,?_⟩,?_⟩
    · intro face hface
      rw [List.mem_singleton] at hface
      subst hface
      exact hknown
    · intro face hface id hid
      rw [List.mem_singleton] at hface
      subst hface
      cases hid
    · intro face hface _
      rw [List.mem_singleton] at hface
      subst hface
      rfl
    · intro t _
      refine ⟨?_,by simp [told]⟩
      intro face hface _
      rw [List.mem_singleton] at hface
      subst hface
      rfl
  unfold seedTurns
  cases session with
  | none => exact hnone
  | some session =>
    dsimp only
    split_ifs
    · exact hone session
    · exact hnone

theorem length_filter_le_one {α : Type} {R : α → α → Prop} {p : α → Bool} {xs : List α}
    (h : xs.Pairwise R) (hp : ∀ x y, p x = true → p y = true → ¬ R x y) : (xs.filter p).length ≤ 1 := by
  have hfilter := h.filter p
  have hall : ∀ x ∈ xs.filter p, p x = true := fun x hx => (List.mem_filter.mp hx).2
  match xs.filter p, hfilter, hall with
  | [], _, _ => exact Nat.zero_le 1
  | [_], _, _ => exact Nat.le_refl 1
  | x :: y :: rest, hpair, hall =>
    have hxy := (List.pairwise_cons.mp hpair).1 y List.mem_cons_self
    exact absurd hxy (hp x y (hall x (by simp)) (hall y (by simp)))

/-- In the rows of a history no two have one id or one request, and the text of a turn that
was answered piece by piece stands in its one row, whole and in order. -/
theorem aggregateEventsToTurns_attributed (js : Engine) (start : Moment) (session : Option Session)
    {events : List EventMessage} (hsent : GatewaySent js events) {rows : List TurnMessage}
    (h : aggregateEventsToTurns js start events session = some rows) :
    rows.Pairwise (fun a b => a.turnId.strictEq b.turnId = false) ∧
    (∀ id, (id = [] → ∀ event ∈ events, event.type = .sessionUserInput →
        event.clientRequestId ≠ some []) →
      (rows.filter (fun row => row.clientRequestId = some id)).length ≤ 1) ∧
    (∀ t, told t events ≠ [] → unpreempted js t events = true →
      ∃ row, rows.filter (fun row => row.turnId.strictEq (.str t)) = [row] ∧
        row.text = .str (told t events)) := by
  have hinv : Attributed js events (rows.map TurnMessage.face) := by
    refine foldlM_invariant (P := fun events rows => Attributed js events (rows.map TurnMessage.face))
      (attributed_seed js start events session) ?_ h
    intro pre event post rows rows' hevents hpre hrows
    exact hpre.step (hevents ▸ hsent).next (applyLiveEventToTurns_effect hrows)
  have hapart : rows.Pairwise (fun a b => a.turnId.strictEq b.turnId = false) := by
    have hids := hinv.apart
    rw [Apart,List.map_map,List.pairwise_map] at hids
    exact hids
  refine ⟨hapart,?_,?_⟩
  · intro id hempty
    by_cases hid : id = []
    · have hnone : rows.filter (fun row => row.clientRequestId = some id) = [] := by
        rw [List.filter_eq_nil_iff]
        intro row hrow
        simp only [decide_eq_true_eq]
        intro hcarries
        obtain ⟨event,hevent,htype,hown⟩ := hinv.carried row.face (List.mem_map_of_mem hrow) id hcarries
        exact hempty hid event hevent htype (hid ▸ hown)
      rw [hnone]
      exact Nat.zero_le 1
    · have hone := hinv.requests
      rw [OneEach,List.map_map,List.pairwise_map] at hone
      refine length_filter_le_one hone ?_
      intro a b ha hb hab
      exact hab id hid (of_decide_eq_true ha) (of_decide_eq_true hb)
  · intro t hsome hclean
    obtain ⟨htext,hexists⟩ := hinv.answers t hclean
    obtain ⟨face,hface,hid⟩ := hexists hsome
    obtain ⟨row,hrow,rfl⟩ := List.mem_map.mp hface
    have hlength : (rows.filter (fun row => row.turnId.strictEq (.str t))).length ≤ 1 := by
      refine length_filter_le_one hapart ?_
      intro a b ha hb hab
      rw [Value.strictEq_str.mp hb,ha] at hab
      cases hab
    have hmem : row ∈ rows.filter (fun row => row.turnId.strictEq (.str t)) :=
      List.mem_filter.mpr ⟨hrow,Value.strictEq_str.mpr hid⟩
    refine ⟨row,?_,htext row.face hface hid⟩
    have hone := Nat.le_antisymm hlength (List.length_pos_of_mem hmem)
    obtain ⟨only,honly⟩ := List.length_eq_one_iff.mp hone
    rw [honly,List.mem_singleton] at hmem
    rw [honly,hmem]

namespace Sample

def output (turnId eventType chunk : String) : EventMessage where
  type := .sessionOutput
  moment := tenOClock
  payload := .obj [(ofString "turnId",.lit turnId),(ofString "eventType",.lit eventType),
    (ofString "chunk",.lit chunk)]

def delta (turnId chunk : String) : EventMessage := output turnId "item/agentMessage/delta" chunk

/-- The prompt waits for a turn, a first empty piece gives it to one turn, and the answer of
another takes the row over. -/
def interleaved : List EventMessage :=
  [{ freshInput tenOClock with payload := .obj [(ofString "clientRequestId",.lit "r1"),
      (ofString "prompt",.lit "hi")] },
    delta "t1" "",delta "t2" "A",output "t3" "turn/diff/updated" "",delta "t1" "one ",delta "t2" "B",
    freshInput { tenOClock with random := ofString "q7aa" },
    { freshInput tenOClock with type := .sessionFinished },delta "t1" "two"]

end Sample

theorem Sample.interleaved_sent : GatewaySent Sample.engine Sample.interleaved := by
  refine ⟨?_,by decide,by decide,by decide⟩
  intro event hevent hdelta
  simp only [Sample.interleaved,List.mem_cons,List.not_mem_nil,or_false] at hevent
  rcases hevent with rfl | rfl | rfl | rfl | rfl | rfl | rfl | rfl | rfl
  · cases hdelta
  · exact ⟨ofString "t1",by decide,rfl⟩
  · exact ⟨ofString "t2",by decide,rfl⟩
  · exact ⟨ofString "t3",by decide,rfl⟩
  · exact ⟨ofString "t1",by decide,rfl⟩
  · exact ⟨ofString "t2",by decide,rfl⟩
  · cases hdelta
  · cases hdelta
  · exact ⟨ofString "t1",by decide,rfl⟩

/-- Both answers are whole, each in its row. -/
theorem interleaved_attributed :
    ∃ rows, aggregateEventsToTurns Sample.engine Sample.tenOClock Sample.interleaved none = some rows ∧
      rows.length = 3 ∧ rows.Pairwise (fun a b => a.turnId.strictEq b.turnId = false) ∧
      (rows.filter (fun row => row.clientRequestId = some (ofString "r1"))).length ≤ 1 ∧
      (∃ row, rows.filter (fun row => row.turnId.strictEq (.lit "t1")) = [row] ∧
        row.text = .lit "one two") ∧
      ∃ row, rows.filter (fun row => row.turnId.strictEq (.lit "t2")) = [row] ∧ row.text = .lit "AB" := by
  have hlength : (aggregateEventsToTurns Sample.engine Sample.tenOClock Sample.interleaved none).map
      List.length = some 3 := by decide
  obtain ⟨rows,hrows,hthree⟩ := Option.map_eq_some_iff.mp hlength
  obtain ⟨hapart,hrequests,htexts⟩ := aggregateEventsToTurns_attributed Sample.engine Sample.tenOClock
    none Sample.interleaved_sent hrows
  have hone : told (ofString "t1") Sample.interleaved = ofString "one two" := by decide
  have htwo : told (ofString "t2") Sample.interleaved = ofString "AB" := by decide
  obtain ⟨first,hfirst,hfirstText⟩ := htexts (ofString "t1") (by decide) (by decide)
  obtain ⟨second,hsecond,hsecondText⟩ := htexts (ofString "t2") (by decide) (by decide)
  refine ⟨rows,hrows,hthree,hapart,hrequests _ (by decide),⟨first,hfirst,?_⟩,⟨second,hsecond,?_⟩⟩
  · rw [hfirstText,hone]
    rfl
  · rw [hsecondText,htwo]
    rfl

end CodeHarbor.App
