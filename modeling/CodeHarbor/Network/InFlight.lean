import CodeHarbor.Network.Acceptance
set_option autoImplicit false

namespace CodeHarbor.Network.Identity
open Lib Lib.Go Lib.Sql Lib.Base64 Relay

/-! What is under way between a gateway and its relay while the gateway keeps its device. -/

/-- An enrolment runs for a gateway without a credential, with a token of its account. -/
structure World.Enrolling (d : Deployment) (w : World) (e : Enrollment) : Prop where
  credential : w.identity.credential = []
  account : d.gateway.hasAccountCredentials = true
  token : ∀ token, e.token = some token → d.TokenOk token
  unset : e.token = none → d.gateway.relayAccountToken = []

theorem World.Enrolling.move {d : Deployment} {w w' : World} {e : Enrollment} (h : w.Enrolling d e)
    (hcredential : w'.identity.credential = []) : w'.Enrolling d e :=
  ⟨hcredential,h.account,h.token,h.unset⟩

/-- Whatever is in flight concerns the one device. -/
structure World.Named (d : Deployment) (id : Text) (w : World) : Prop where
  identity : normalizeDeviceId w.identity.deviceId = some id
  hellos : ∀ h ∈ w.hellos, normalizeDeviceId h.2.deviceId = some id
  readies : ∀ r ∈ w.readies, normalizeDeviceId r.2.deviceId = some id
  requests : ∀ r ∈ w.requests, d.TokenOk r.2.1 ∧ normalizeDeviceId r.2.2 = some id
  enrolled : ∀ a ∈ w.answers, ∀ deviceId token, a.2 = .enrolled deviceId token → deviceId = id
  owned : ∀ a ∈ w.answers, a.2 = .deviceOwned → ∀ e, w.enrollment = some e → e.number ≠ a.1
  enrollment : ∀ e, w.enrollment = some e → w.Enrolling d e

/-- Sockets and enrolments are numbered as they come. -/
structure World.Numbered (w : World) : Prop where
  hellos : ∀ h ∈ w.hellos, h.1 < w.numbers
  readies : ∀ r ∈ w.readies, r.1 < w.numbers
  requests : ∀ r ∈ w.requests, r.1 < w.numbers
  answers : ∀ a ∈ w.answers, a.1 < w.numbers
  socket : ∀ s, w.relaySocket = some s → s.number < w.numbers
  enrollment : ∀ e, w.enrollment = some e → e.number < w.numbers

def World.current (w : World) (n : Nat) : Prop := ∃ s, w.relaySocket = some s ∧ s.number = n

/-- Every hello shows the stored credential, and no token is issued for it. -/
structure World.Plain (w : World) : Prop where
  hellos : ∀ h ∈ w.hellos, (h.2.deviceToken ≠ [] ∨ h.2.deviceSecret ≠ []) ∧
    (w.current h.1 → h.2.deviceId = w.identity.deviceId)
  readies : ∀ r ∈ w.readies, r.2.deviceToken = [] ∧ (w.current r.1 → r.2.deviceId = w.identity.deviceId)

/-- A step that sends nothing. A socket or an enrolment it starts has a new number. -/
structure World.Frame (w w' : World) : Prop where
  deviceId : w'.identity.deviceId = w.identity.deviceId
  hellos : w'.hellos ⊆ w.hellos
  readies : w'.readies ⊆ w.readies
  requests : w'.requests ⊆ w.requests
  answers : w'.answers ⊆ w.answers
  numbers : w.numbers ≤ w'.numbers
  socket : ∀ s, w'.relaySocket = some s → w.relaySocket = some s ∨ w.numbers ≤ s.number ∧ s.number < w'.numbers
  enrollment : ∀ e, w'.enrollment = some e →
    (∃ e', w.enrollment = some e' ∧ e'.number = e.number) ∨ w.numbers ≤ e.number ∧ e.number < w'.numbers

section Frames

variable {d : Deployment} {id : Text} {w w' : World}

theorem World.Named.running (h : w.Named d id) (hidentity : w'.identity = w.identity) :
    ∀ e, w.enrollment = some e → w'.Enrolling d e := by
  intro e he
  have henrolls := h.enrollment e he
  exact henrolls.move (by rw [hidentity]; exact henrolls.credential)

theorem subset_eraseIdx {α : Type} (xs : List α) (i : Nat) : xs.eraseIdx i ⊆ xs :=
  (List.eraseIdx_sublist xs i).subset

theorem World.Named.frame (h : w.Named d id) (hn : w.Numbered) (f : w.Frame w')
    (he : ∀ e, w'.enrollment = some e → w'.Enrolling d e) : w'.Named d id where
  identity := f.deviceId ▸ h.identity
  hellos := fun m hm => h.hellos m (f.hellos hm)
  readies := fun m hm => h.readies m (f.readies hm)
  requests := fun m hm => h.requests m (f.requests hm)
  enrolled := fun m hm => h.enrolled m (f.answers hm)
  owned := by
    intro a ha howned e hrunning
    rcases f.enrollment e hrunning with ⟨e',hrunning',hsame⟩ | ⟨hnew,-⟩
    · rw [← hsame]
      exact h.owned a (f.answers ha) howned e' hrunning'
    · have hold := hn.answers a (f.answers ha)
      omega
  enrollment := he

theorem World.Numbered.frame (h : w.Numbered) (f : w.Frame w') : w'.Numbered where
  hellos := fun m hm => (h.hellos m (f.hellos hm)).trans_le f.numbers
  readies := fun m hm => (h.readies m (f.readies hm)).trans_le f.numbers
  requests := fun m hm => (h.requests m (f.requests hm)).trans_le f.numbers
  answers := fun m hm => (h.answers m (f.answers hm)).trans_le f.numbers
  socket := by
    intro s hs
    rcases f.socket s hs with hold | ⟨-,hnew⟩
    · exact (h.socket s hold).trans_le f.numbers
    · exact hnew
  enrollment := by
    intro e he
    rcases f.enrollment e he with ⟨e',hold,hsame⟩ | ⟨-,hnew⟩
    · exact hsame ▸ (h.enrollment e' hold).trans_le f.numbers
    · exact hnew

theorem World.Frame.current (f : w.Frame w') {n : Nat} (hn : n < w.numbers) (h : w'.current n) :
    w.current n := by
  obtain ⟨s,hs,rfl⟩ := h
  rcases f.socket s hs with hold | ⟨hnew,-⟩
  · exact ⟨s,hold,rfl⟩
  · omega

theorem World.Plain.frame (h : w.Plain) (hn : w.Numbered) (f : w.Frame w') : w'.Plain where
  hellos := by
    intro m hm
    obtain ⟨hshown,hid⟩ := h.hellos m (f.hellos hm)
    refine ⟨hshown,fun hcurrent => ?_⟩
    rw [f.deviceId]
    exact hid (f.current (hn.hellos m (f.hellos hm)) hcurrent)
  readies := by
    intro m hm
    obtain ⟨htoken,hid⟩ := h.readies m (f.readies hm)
    refine ⟨htoken,fun hcurrent => ?_⟩
    rw [f.deviceId]
    exact hid (f.current (hn.readies m (f.readies hm)) hcurrent)

theorem World.Frame.of_same (hid : w'.identity.deviceId = w.identity.deviceId)
    (hhellos : w'.hellos ⊆ w.hellos) (hreadies : w'.readies ⊆ w.readies)
    (hrequests : w'.requests ⊆ w.requests) (hanswers : w'.answers ⊆ w.answers)
    (hnumbers : w'.numbers = w.numbers)
    (hsocket : ∀ s, w'.relaySocket = some s → w.relaySocket = some s)
    (henrollment : ∀ e, w'.enrollment = some e → ∃ e', w.enrollment = some e' ∧ e'.number = e.number) :
    w.Frame w' :=
  ⟨hid,hhellos,hreadies,hrequests,hanswers,hnumbers.ge,fun s hs => .inl (hsocket s hs),
    fun e he => .inl (henrollment e he)⟩

theorem World.Frame.refl (w : World) : w.Frame w :=
  .of_same rfl (List.Subset.refl _) (List.Subset.refl _) (List.Subset.refl _) (List.Subset.refl _) rfl
    (fun _ h => h) (fun e h => ⟨e,h,rfl⟩)

end Frames

/-- The secret of the old relay gives way to the account. -/
def World.migrates (d : Deployment) (w : World) : Prop :=
  w.relaySocket = none ∧ w.enrollment = none ∧ w.identity.deviceToken = [] ∧
    w.identity.deviceSecret ≠ [] ∧ d.gateway.hasAccountCredentials = true

section Inputs

variable {d : Deployment} {id : Text} {w : World}

theorem World.openSocket_frame (w : World) : w.Frame w.openSocket where
  deviceId := rfl
  hellos := List.Subset.refl _
  readies := List.Subset.refl _
  requests := List.Subset.refl _
  answers := List.Subset.refl _
  numbers := Nat.le_succ _
  socket := by
    intro s hs
    cases hs
    exact .inr ⟨le_rfl,Nat.lt_succ_self _⟩
  enrollment := fun e he => .inl ⟨e,he,rfl⟩

theorem World.enrollDevice_frame (d : Deployment) (w : World) (allow : Bool) :
    w.Frame (w.enrollDevice d allow) where
  deviceId := rfl
  hellos := List.Subset.refl _
  readies := List.Subset.refl _
  requests := List.Subset.refl _
  answers := List.Subset.refl _
  numbers := Nat.le_succ _
  socket := fun s hs => .inl hs
  enrollment := by
    intro e he
    cases he
    exact .inr ⟨le_rfl,Nat.lt_succ_self _⟩

theorem World.enrollDevice_enrolls (hcredential : w.identity.credential = [])
    (haccount : d.gateway.hasAccountCredentials = true) (allow : Bool) {e : Enrollment}
    (he : (w.enrollDevice d allow).enrollment = some e) : (w.enrollDevice d allow).Enrolling d e := by
  cases he
  refine ⟨hcredential,haccount,?_,?_⟩
  · intro token htoken
    dsimp only at htoken
    split_ifs at htoken with hset
    cases htoken
    exact hset
  · intro hnone
    dsimp only at hnone
    split_ifs at hnone with hset
    exact not_not.mp hset

/-- What `connectRelay` does: nothing, open a socket with the credential or for the server token,
or enrol. -/
theorem World.connect_cases (d : Deployment) (w : World) :
    w.connect d = w ∨
    (w.enrollment = none ∧ w.connect d = w.openSocket ∧
      (w.identity.deviceToken ≠ [] ∨ d.gateway.hasAccountCredentials = false)) ∨
    (w.enrollment = none ∧ w.relaySocket = none ∧ w.identity.deviceToken = [] ∧
      d.gateway.hasAccountCredentials = true ∧
      w.connect d = World.enrollDevice d { w with identity := { deviceId := w.identity.deviceId } } true) ∨
    (w.enrollment = none ∧ w.relaySocket = none ∧ w.identity.credential = [] ∧
      d.gateway.hasAccountCredentials = true ∧ w.connect d = w.enrollDevice d true) := by
  unfold connect
  dsimp only
  by_cases hbusy : w.relaySocket.isSome ∨ w.enrollment.isSome
  · rw [if_pos hbusy]
    exact .inl rfl
  rw [if_neg hbusy]
  obtain ⟨hsocket,hrunning⟩ : w.relaySocket = none ∧ w.enrollment = none := by simpa using hbusy
  by_cases htoken : w.identity.deviceToken = []
  · rw [if_neg (not_not.mpr htoken)]
    by_cases hlegacy : w.identity.deviceSecret ≠ [] ∨ d.gateway.relayServerToken ≠ []
    · rw [if_pos hlegacy]
      cases hhas : d.gateway.hasAccountCredentials with
      | false => exact .inr (.inl ⟨hrunning,by simp,.inr rfl⟩)
      | true => exact .inr (.inr (.inl ⟨hrunning,hsocket,htoken,rfl,by simp⟩))
    · rw [if_neg hlegacy]
      cases hhas : d.gateway.hasAccountCredentials with
      | false => exact .inl (by simp)
      | true =>
        refine .inr (.inr (.inr ⟨hrunning,hsocket,?_,rfl,by simp⟩))
        rw [PersistedRelayIdentity.credential,if_pos htoken]
        exact not_not.mp (not_or.mp hlegacy).1
  · rw [if_pos htoken]
    exact .inr (.inl ⟨hrunning,rfl,.inl htoken⟩)

end Inputs

/-- Between a gateway that keeps its device and the relay. With account credentials nothing but
the stored credential is ever shown; without, the server token may be. -/
structure World.Settled (d : Deployment) (id : Text) (w : World) : Prop where
  named : w.Named d id
  numbered : w.Numbered
  account : d.gateway.hasAccountCredentials = true →
    w.Plain ∧ (w.relaySocket ≠ none → w.identity.credential ≠ [])
  withoutAccount : d.gateway.hasAccountCredentials = false →
    w.requests = [] ∧ (d.ByServerToken w.relay id ∨ w.Plain)

section Settled

variable {d : Deployment} {id : Text} {w w' : World}

theorem World.Settled.frame (h : w.Settled d id) (f : w.Frame w')
    (he : ∀ e, w'.enrollment = some e → w'.Enrolling d e)
    (hsocket : d.gateway.hasAccountCredentials = true → w'.relaySocket ≠ none → w'.identity.credential ≠ [])
    (hserver : d.ByServerToken w.relay id → d.ByServerToken w'.relay id) : w'.Settled d id where
  named := h.named.frame h.numbered f he
  numbered := h.numbered.frame f
  account := fun has => ⟨(h.account has).1.frame h.numbered f,hsocket has⟩
  withoutAccount := by
    intro has
    obtain ⟨hrequests,hshown⟩ := h.withoutAccount has
    refine ⟨List.eq_nil_of_subset_nil (by rw [← hrequests]; exact f.requests),?_⟩
    exact hshown.imp hserver (fun hplain => hplain.frame h.numbered f)

theorem World.Settled.idle (h : w.Settled d id) (has : d.gateway.hasAccountCredentials = false) :
    w.enrollment = none := by
  rw [Option.eq_none_iff_forall_ne_some]
  intro e he
  have haccount := (h.named.enrollment e he).account
  rw [has] at haccount
  cases haccount

theorem World.Settled.shows (h : w.Settled d id) :
    (d.gateway.hasAccountCredentials = false ∧ d.ByServerToken w.relay id) ∨ w.Plain := by
  cases has : d.gateway.hasAccountCredentials with
  | true => exact .inr (h.account has).1
  | false => exact (h.withoutAccount has).2.imp (fun hserver => ⟨rfl,hserver⟩) (fun hp => hp)

theorem World.Settled.connect (h : w.Settled d id) : (w.connect d).Settled d id := by
  have hkeep := h.account
  rcases w.connect_cases d with heq | ⟨hidle,heq,hshown⟩ | ⟨hidle,hclosed,-,has,heq⟩ |
      ⟨hidle,hclosed,hcredential,has,heq⟩
  · rw [heq]
    exact h
  · rw [heq]
    refine h.frame w.openSocket_frame ?_ ?_ (fun hs => hs)
    · intro e he
      have hrunning : w.enrollment = some e := he
      rw [hidle] at hrunning
      cases hrunning
    · intro has _
      have htoken : w.identity.deviceToken ≠ [] := hshown.resolve_right (by simp [has])
      change w.identity.credential ≠ []
      rwa [PersistedRelayIdentity.credential,if_neg htoken]
  · rw [heq]
    have f := World.enrollDevice_frame d { w with identity := { deviceId := w.identity.deviceId } } true
    refine h.frame ⟨f.deviceId,f.hellos,f.readies,f.requests,f.answers,f.numbers,f.socket,f.enrollment⟩
      ?_ ?_ (fun hs => hs)
    · exact fun e he => World.enrollDevice_enrolls rfl has true he
    · exact fun _ hopen => absurd hclosed hopen
  · rw [heq]
    refine h.frame (w.enrollDevice_frame d true) ?_ ?_ (fun hs => hs)
    · exact fun e he => World.enrollDevice_enrolls hcredential has true he
    · exact fun _ hopen => absurd hclosed hopen

theorem World.Settled.login (h : w.Settled d id) : (w.login d).Settled d id := by
  unfold World.login
  split
  · exact h
  rename_i e hrunning
  have henrolls := h.named.enrollment e hrunning
  split_ifs with htoken
  · exact h
  have hnone : e.token = none := by simpa using htoken
  split
  · refine h.frame (.of_same rfl (List.Subset.refl _) (List.Subset.refl _) (List.Subset.refl _)
      (List.Subset.refl _) rfl (fun _ hs => hs) (by simp)) (by simp) (fun has => (h.account has).2)
      (fun hs => hs)
  · rename_i user hlogin
    refine h.frame (.of_same rfl (List.Subset.refl _) (List.Subset.refl _) (List.Subset.refl _)
      (List.Subset.refl _) rfl (fun _ hs => hs) ?_) ?_ (fun has => (h.account has).2) (fun hs => hs)
    · intro e' he'
      cases he'
      exact ⟨e,hrunning,rfl⟩
    · intro e' he'
      cases he'
      refine ⟨henrolls.credential,henrolls.account,?_,by simp⟩
      intro token heq
      cases heq
      exact ⟨henrolls.unset hnone,login_eq_some hlogin⟩

theorem World.Settled.post (h : w.Settled d id) : w.post.Settled d id := by
  unfold World.post
  split
  · exact h
  rename_i e hrunning
  have henrolls := h.named.enrollment e hrunning
  split
  · exact h
  rename_i token htoken
  split_ifs
  · exact h
  have henrolls' : World.Enrolling d { w with
      enrollment := some { e with posted := true }
      requests := w.requests ++ [(e.number,token,w.identity.deviceId)] } { e with posted := true } :=
    ⟨henrolls.credential,henrolls.account,henrolls.token,henrolls.unset⟩
  have hf : w.Frame { w with enrollment := some { e with posted := true } } := by
    refine .of_same rfl (List.Subset.refl _) (List.Subset.refl _) (List.Subset.refl _)
      (List.Subset.refl _) rfl (fun _ hs => hs) ?_
    intro e' he'
    cases he'
    exact ⟨e,hrunning,rfl⟩
  have hframed := h.named.frame h.numbered hf (fun e' he' => by
    cases he'
    exact ⟨henrolls.credential,henrolls.account,henrolls.token,henrolls.unset⟩)
  have hnumbered := h.numbered.frame hf
  refine ⟨{ hframed with requests := ?_, enrollment := ?_ },{ hnumbered with requests := ?_ },?_,?_⟩
  · intro r hr
    rcases List.mem_append.mp hr with hr | hr
    · exact h.named.requests r hr
    · rw [List.mem_singleton.mp hr]
      exact ⟨henrolls.token token htoken,h.named.identity⟩
  · intro e' he'
    cases he'
    exact henrolls'
  · intro r hr
    rcases List.mem_append.mp hr with hr | hr
    · exact h.numbered.requests r hr
    · rw [List.mem_singleton.mp hr]
      exact h.numbered.enrollment e hrunning
  · intro has
    obtain ⟨hplain,hsocket⟩ := h.account has
    exact ⟨{ hplain with },hsocket⟩
  · intro has
    rw [henrolls.account] at has
    cases has

theorem World.replaceable_none (has : d.gateway.hasAccountCredentials = false) {r : RelayState}
    (h : d.Replaceable r id) : d.ByServerToken r id := by
  refine h.resolve_left ?_
  rintro ⟨user,hprincipal,-⟩
  rw [principal_eq_none has] at hprincipal
  cases hprincipal

theorem World.Accepted.replaceable (h : w.Accepted d id) (hcredential : w.identity.credential = []) :
    d.Replaceable w.relay id :=
  ((accepted_iff h.1).mp h).resolve_left (not_authenticates hcredential)

theorem World.Settled.enrollFails (h : w.Settled d id) :
    World.Settled d id { w with enrollment := none } :=
  h.frame (.of_same rfl (List.Subset.refl _) (List.Subset.refl _) (List.Subset.refl _)
    (List.Subset.refl _) rfl (fun _ hs => hs) (by simp)) (by simp) (fun has => (h.account has).2)
    (fun hs => hs)

theorem World.Settled.close (h : w.Settled d id) (code : Nat) : (w.close code).1.Settled d id := by
  unfold World.close
  split
  · exact h
  dsimp only
  split_ifs
  · refine h.frame (.of_same rfl (List.Subset.refl _) (List.Subset.refl _) (List.Subset.refl _)
      (List.Subset.refl _) rfl (by simp) (fun e he => ⟨e,he,rfl⟩)) ?_ (by simp) (fun hs => hs)
    exact fun e he => (h.named.enrollment e he).move rfl
  · refine h.frame (.of_same rfl (List.Subset.refl _) (List.Subset.refl _) (List.Subset.refl _)
      (List.Subset.refl _) rfl (by simp) (fun e he => ⟨e,he,rfl⟩)) ?_ (by simp) (fun hs => hs)
    exact h.named.running rfl

theorem World.Settled.relay (h : w.Settled d id) {r : RelayState}
    (hserver : d.ByServerToken w.relay id → d.ByServerToken r id) :
    World.Settled d id { w with relay := r } :=
  h.frame (.of_same rfl (List.Subset.refl _) (List.Subset.refl _) (List.Subset.refl _)
    (List.Subset.refl _) rfl (fun _ hs => hs) (fun e he => ⟨e,he,rfl⟩))
    (h.named.running rfl)
    (fun has => (h.account has).2) hserver

theorem World.Settled.relayRestart (h : w.Settled d id) : w.relayRestart.Settled d id :=
  (h.relay byServerToken_restarted).frame (.of_same rfl (List.nil_subset _) (List.Subset.refl _)
    (List.nil_subset _) (List.Subset.refl _) rfl (fun _ hs => hs) (fun e he => ⟨e,he,rfl⟩))
    (h.named.running rfl)
    (fun has => (h.account has).2) (fun hs => hs)

theorem World.deviceHello_deviceId (d : Deployment) (w : World) :
    (w.deviceHello d).deviceId = w.identity.deviceId := by
  unfold deviceHello
  dsimp only
  split_ifs <;> rfl

theorem World.deviceHello_credential (d : Deployment) (h : w.identity.credential ≠ []) :
    (w.deviceHello d).deviceToken ≠ [] ∨ (w.deviceHello d).deviceSecret ≠ [] := by
  unfold PersistedRelayIdentity.credential at h
  unfold deviceHello
  by_cases htoken : w.identity.deviceToken = []
  · rw [if_pos htoken] at h
    simp [htoken,h]
  · simp [htoken]

theorem World.Settled.opened (h : w.Settled d id) (ha : w.Accepted d id) : (w.opened d).Settled d id := by
  unfold World.opened
  split
  · exact h
  rename_i s hsocket
  split_ifs
  · exact h
  have hcurrent : ∀ n, World.current { w with
      relaySocket := some { s with opened := true }
      hellos := w.hellos ++ [(s.number,w.deviceHello d)] } n → w.current n := by
    rintro n ⟨s',heq,rfl⟩
    cases heq
    exact ⟨s,hsocket,rfl⟩
  have hplain : w.Plain → w.identity.credential ≠ [] → World.Plain { w with
      relaySocket := some { s with opened := true }
      hellos := w.hellos ++ [(s.number,w.deviceHello d)] } := by
    intro hplain hcredential
    refine ⟨?_,fun r hr => ⟨(hplain.readies r hr).1,fun hc => (hplain.readies r hr).2 (hcurrent _ hc)⟩⟩
    intro m hm
    rcases List.mem_append.mp hm with hm | hm
    · exact ⟨(hplain.hellos m hm).1,fun hc => (hplain.hellos m hm).2 (hcurrent _ hc)⟩
    · rw [List.mem_singleton.mp hm]
      exact ⟨w.deviceHello_credential d hcredential,fun _ => w.deviceHello_deviceId d⟩
  refine ⟨{ h.named with hellos := ?_, enrollment := h.named.running rfl },
    { h.numbered with hellos := ?_, socket := ?_ },?_,?_⟩
  · intro m hm
    rcases List.mem_append.mp hm with hm | hm
    · exact h.named.hellos m hm
    · rw [List.mem_singleton.mp hm,deviceHello_deviceId]
      exact h.named.identity
  · intro m hm
    rcases List.mem_append.mp hm with hm | hm
    · exact h.numbered.hellos m hm
    · rw [List.mem_singleton.mp hm]
      exact h.numbered.socket s hsocket
  · intro s' heq
    cases heq
    exact h.numbered.socket s hsocket
  · intro has
    have hshown := (h.account has).2 (by simp [hsocket])
    exact ⟨hplain (h.account has).1 hshown,fun _ => hshown⟩
  · intro has
    refine ⟨(h.withoutAccount has).1,?_⟩
    -- a gateway without any credential is accepted for the server token only
    by_cases hcredential : w.identity.credential = []
    · exact .inl (replaceable_none has (ha.replaceable hcredential))
    · exact (h.withoutAccount has).2.imp (fun hserver => hserver) (fun hp => hplain hp hcredential)

theorem World.Settled.relayEnrolls (h : w.Settled d id) (ha : w.Accepted d id) (i : Nat)
    (random : Fin 16 → UInt8) (secret : Fin 32 → UInt8) (storageUp : Bool) :
    (w.relayEnrolls d i random secret storageUp).Settled d id := by
  unfold World.relayEnrolls
  split
  · exact h
  rename_i n token requested hget
  have hmem := List.mem_of_getElem? hget
  obtain ⟨hok,hid⟩ := h.named.requests _ hmem
  have has : d.gateway.hasAccountCredentials = true := by
    by_contra hhas
    rw [(h.withoutAccount (Bool.eq_false_of_not_eq_true hhas)).1] at hmem
    cases hmem
  have hreply : ∀ answer r, (answer = .deviceOwned → ∀ e, w.enrollment = some e → e.number ≠ n) →
      (∀ deviceId token, answer = .enrolled deviceId token → deviceId = id) →
      World.Settled d id { w with
        relay := r
        requests := w.requests.eraseIdx i
        answers := w.answers ++ [(n,answer)] } := by
    intro answer r howned henrolled
    refine ⟨{ h.named with requests := ?_, enrolled := ?_, owned := ?_, enrollment := h.named.running rfl },
      { h.numbered with requests := ?_, answers := ?_ },?_,?_⟩
    · exact fun r hr => h.named.requests r (subset_eraseIdx _ i hr)
    · intro a hanswer
      rcases List.mem_append.mp hanswer with hanswer | hanswer
      · exact h.named.enrolled a hanswer
      · rw [List.mem_singleton.mp hanswer]
        exact henrolled
    · intro a hanswer
      rcases List.mem_append.mp hanswer with hanswer | hanswer
      · exact h.named.owned a hanswer
      · rw [List.mem_singleton.mp hanswer]
        exact howned
    · exact fun r hr => h.numbered.requests r (subset_eraseIdx _ i hr)
    · intro a hanswer
      rcases List.mem_append.mp hanswer with hanswer | hanswer
      · exact h.numbered.answers a hanswer
      · rw [List.mem_singleton.mp hanswer]
        exact h.numbered.requests _ hmem
    · exact fun _ => ⟨{ (h.account has).1 with },(h.account has).2⟩
    · intro hhas
      rw [has] at hhas
      cases hhas
  have hfailed := hreply .failed w.relay (by simp) (by simp)
  dsimp only
  split_ifs
  · exact hfailed
  split
  · exact hfailed
  rename_i user huser
  split
  · rename_i store id' henroll
    refine hreply _ _ (by simp) ?_
    intro deviceId token heq
    cases heq
    exact enrollDevice_id hid henroll
  · rename_i henroll
    refine hreply _ _ (fun _ e he => ?_) (by simp)
    -- the gateway has no credential while it enrols, so the device is free for its account
    have hreplaceable := ha.replaceable (h.named.enrollment e he).credential
    exact absurd henroll (replaceable_not_owned hreplaceable hok huser hid)
  · exact hfailed

theorem World.Settled.relayReads (h : w.Settled d id) (i : Nat) (secret : Fin 32 → UInt8)
    (storageUp leaseUp : Bool) : (w.relayReads d i secret storageUp leaseUp).Settled d id := by
  unfold World.relayReads
  split
  · exact h
  rename_i n hello hget
  have hmem := List.mem_of_getElem? hget
  have hf : w.Frame { w with hellos := w.hellos.eraseIdx i } :=
    .of_same rfl (subset_eraseIdx _ i) (List.Subset.refl _) (List.Subset.refl _)
      (List.Subset.refl _) rfl (fun _ hs => hs) (fun e he => ⟨e,he,rfl⟩)
  have hrest : World.Settled d id { w with hellos := w.hellos.eraseIdx i } :=
    h.frame hf (h.named.running rfl) (fun has => (h.account has).2) (fun hs => hs)
  dsimp only
  by_cases hup : storageUp = false
  · rw [if_pos hup]
    exact hrest
  rw [if_neg hup]
  split
  · exact hrest
  rename_i store ready hresolve
  have hplain : w.Plain → store = w.relay.store ∧ ready = { deviceId := hello.deviceId } :=
    fun hp => resolve_credential (hp.hellos _ hmem).1 hresolve
  have hid : normalizeDeviceId ready.deviceId = some id := by
    rcases h.shows with ⟨-,hserver⟩ | hp
    · exact (resolve_replaceable (.inr hserver) (h.named.hellos _ hmem) hresolve).2
    · rw [(hplain hp).2]
      exact h.named.hellos _ hmem
  have hserver : d.ByServerToken w.relay id → d.ByServerToken { w.relay with store := store } id := by
    intro hserver
    rcases h.shows with ⟨has,-⟩ | hp
    · exact replaceable_none has (resolve_replaceable (.inr hserver) (h.named.hellos _ hmem) hresolve).1
    · rw [(hplain hp).1]
      exact hserver
  have hstored := hrest.relay hserver
  split_ifs
  · have hanswered : w.Plain → World.Plain { w with
        hellos := w.hellos.eraseIdx i
        relay := { w.relay with store := store }
        readies := w.readies ++ [(n,ready)] } := by
      intro hp
      refine ⟨fun m hm => hp.hellos m (subset_eraseIdx _ i hm),fun r hr => ?_⟩
      rcases List.mem_append.mp hr with hr | hr
      · exact hp.readies r hr
      · rw [List.mem_singleton.mp hr,(hplain hp).2]
        exact ⟨rfl,(hp.hellos _ hmem).2⟩
    refine ⟨{ hstored.named with readies := ?_, enrollment := h.named.running rfl },
      { hstored.numbered with readies := ?_ },?_,?_⟩
    · intro r hr
      rcases List.mem_append.mp hr with hr | hr
      · exact h.named.readies r hr
      · rw [List.mem_singleton.mp hr]
        exact hid
    · intro r hr
      rcases List.mem_append.mp hr with hr | hr
      · exact h.numbered.readies r hr
      · rw [List.mem_singleton.mp hr]
        exact h.numbered.hellos _ hmem
    · exact fun has => ⟨hanswered (h.account has).1,(h.account has).2⟩
    · exact fun has => ⟨(h.withoutAccount has).1,(h.withoutAccount has).2.imp hserver hanswered⟩
  · exact hstored

theorem World.Settled.deviceReady (h : w.Settled d id) (i : Nat) : (w.deviceReady i).1.Settled d id := by
  unfold World.deviceReady
  split
  · rename_i n ready s hget hsocket
    have hmem := List.mem_of_getElem? hget
    have hf : w.Frame { w with readies := w.readies.eraseIdx i } :=
      .of_same rfl (List.Subset.refl _) (subset_eraseIdx _ i) (List.Subset.refl _)
        (List.Subset.refl _) rfl (fun _ hs => hs) (fun e he => ⟨e,he,rfl⟩)
    have hrest : World.Settled d id { w with readies := w.readies.eraseIdx i } :=
      h.frame hf (h.named.running rfl) (fun has => (h.account has).2) (fun hs => hs)
    dsimp only
    by_cases hnumber : s.number ≠ n
    · rw [if_pos hnumber]
      exact hrest
    rw [if_neg hnumber]
    rcases h.shows with ⟨has,hserver⟩ | hp
    · refine ⟨{ hrest.named with identity := h.named.readies _ hmem, enrollment := ?_ },
        { hrest.numbered with },?_,fun _ => ⟨(h.withoutAccount has).1,.inl hserver⟩⟩
      · intro e he
        have hrunning : w.enrollment = some e := he
        rw [h.idle has] at hrunning
        cases hrunning
      · intro hhas
        rw [has] at hhas
        cases hhas
    · -- the message confirms what the gateway has stored
      obtain ⟨htoken,hid⟩ := hp.readies _ hmem
      have hsame := hid ⟨s,hsocket,not_not.mp hnumber⟩
      dsimp only at htoken hsame
      rw [htoken,if_pos rfl,if_pos rfl,hsame]
      exact hrest.frame (.of_same rfl (List.Subset.refl _) (List.Subset.refl _) (List.Subset.refl _)
        (List.Subset.refl _) rfl (fun _ hs => hs) (fun e he => ⟨e,he,rfl⟩)) (h.named.running rfl)
        (fun has => (h.account has).2) (fun hs => hs)
  · exact h

theorem World.Settled.enrollAnswer (h : w.Settled d id) (i : Nat) (uuid : Text) :
    (w.enrollAnswer d i uuid).Settled d id := by
  unfold World.enrollAnswer
  split
  · rename_i n answer e hget hrunning
    have hmem := List.mem_of_getElem? hget
    have hf : w.Frame { w with answers := w.answers.eraseIdx i } :=
      .of_same rfl (List.Subset.refl _) (List.Subset.refl _) (List.Subset.refl _)
        (subset_eraseIdx _ i) rfl (fun _ hs => hs) (fun e he => ⟨e,he,rfl⟩)
    have hrest : World.Settled d id { w with answers := w.answers.eraseIdx i } :=
      h.frame hf (h.named.running rfl) (fun has => (h.account has).2) (fun hs => hs)
    have hidle := hrest.enrollFails
    dsimp only
    by_cases hnumber : e.number ≠ n
    · rw [if_pos hnumber]
      exact hrest
    rw [if_neg hnumber]
    cases answer with
    | enrolled deviceId deviceToken =>
      dsimp only
      split_ifs with hempty
      · exact hidle
      obtain ⟨htoken,-⟩ := not_or.mp hempty
      obtain rfl := h.named.enrolled _ hmem deviceId deviceToken rfl
      have hf := World.openSocket_frame { w with answers := w.answers.eraseIdx i, enrollment := none }
      have hnumbered := hidle.numbered.frame hf
      -- the socket it opens is a new one, so nothing under way is for it
      have hnew : ∀ m, m < w.numbers → ¬ World.current { w with
          answers := w.answers.eraseIdx i
          enrollment := none
          identity := { deviceId := deviceId, deviceToken := deviceToken }
          relaySocket := some { number := w.numbers }
          numbers := w.numbers+1 } m := by
        rintro m hm ⟨s,heq,rfl⟩
        cases heq
        exact lt_irrefl _ hm
      refine ⟨{ hidle.named with
          identity := normalizeDeviceId_self h.named.identity
          enrollment := by simp [World.openSocket] },{ hnumbered with },?_,?_⟩
      · intro has
        refine ⟨⟨?_,?_⟩,?_⟩
        · exact fun m hm => ⟨((h.account has).1.hellos m hm).1,
            fun hc => absurd hc (hnew _ (h.numbered.hellos m hm))⟩
        · exact fun m hm => ⟨((h.account has).1.readies m hm).1,
            fun hc => absurd hc (hnew _ (h.numbered.readies m hm))⟩
        · intro _
          rwa [World.openSocket,PersistedRelayIdentity.credential,if_neg htoken]
      · intro has
        rw [(h.named.enrollment e hrunning).account] at has
        cases has
    | deviceOwned => exact absurd (not_not.mp hnumber) (h.named.owned _ hmem rfl e hrunning)
    | failed => exact hidle
  · exact h

/-- One step leaves what is in flight in order, as long as the device was accepted before it. -/
theorem World.Settled.step (h : w.Settled d id) (ha : w.Accepted d id) (i : WorldInput) :
    (w.step d i).1.Settled d id := by
  cases i with
  | connect => exact h.connect
  | login => exact h.login
  | post => exact h.post
  | enrollFails => exact h.enrollFails
  | relayEnrolls i random secret storageUp => exact h.relayEnrolls ha i random secret storageUp
  | enrollAnswer i uuid => exact h.enrollAnswer i uuid
  | opened => exact h.opened ha
  | relayReads i secret storageUp leaseUp => exact h.relayReads i secret storageUp leaseUp
  | deviceReady i => exact h.deviceReady i
  | close code => exact h.close code
  | relayRestart => exact h.relayRestart
  | elsewhere accounts auth elapsed => exact h.relay (fun hserver => hserver)

end Settled

end CodeHarbor.Network.Identity
