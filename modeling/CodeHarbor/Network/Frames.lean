import CodeHarbor.Lib.Base64
import CodeHarbor.Lib.JsonCut
import CodeHarbor.Lib.JsonSize
set_option autoImplicit false

namespace CodeHarbor.Network.Frames
open Lib Lib.Js Lib.Js.Json

/-! The frames that a gateway hands to `safeRelaySend` for proxy requests and gateway events, and
the size up to which the relay reads them. -/

def maxProxyBodyBytes : Nat := 16*1024*1024

/-- `Math.ceil(maxProxyBodyBytes * 4 / 3) + 512`. -/
def maxProxyBodyBase64Chars : Nat := (maxProxyBodyBytes*4+2)/3+512

/-- The relay closes a device socket on a longer message. -/
def wsMessageLimit : Nat := 16*2^20

/-- What the runtime decides: the error in which building the request headers ends, if any. -/
structure Platform where
  headersError : Value → Option JsText

/-- A response of the local server: its headers in the order of `forEach`, its body as the reader
delivers it, and the error in which reading ends after that, if any. -/
structure Response where
  status : Nat
  headers : List (JsText × JsText) := []
  chunks : List Bytes := []
  failure : Option JsText := none

def Response.length (r : Response) : Nat := r.chunks.flatten.length

inductive LocalAnswer where
  | failed (error : JsText)
  | response (r : Response)

def isBase64Unit (u : UInt16) : Bool :=
  (0x41 ≤ u && u ≤ 0x5a) || (0x61 ≤ u && u ≤ 0x7a) || (0x30 ≤ u && u ≤ 0x39) || u = 0x2b || u = 0x2f

/-- `/^[A-Za-z0-9+/]*={0,2}$/`. -/
def isBase64 (s : JsText) : Bool :=
  let rest := s.dropWhile isBase64Unit
  rest = [] || rest = [0x3d] || rest = [0x3d,0x3d]

/-- The length of `Buffer.from(s, "base64")`; a last digit on its own is dropped. -/
def decodedLength (s : JsText) : Nat := (s.takeWhile (· ≠ 0x3d)).length*3/4

def isProxyRequest (message : Value) : Bool :=
  match message.get "requestId", message.get "path", message.get "method" with
  | .str requestId, .str path, .str _ =>
    requestId.length ≤ 120 && path.head? = some 0x2f && path.length ≤ 4096
  | _, _, _ => false

def isBody : Value → Bool
  | .undefined => true
  | .str s => s = [] || (s.length%4 ≠ 1 && isBase64 s)
  | _ => false

/-- What `proxyLocalRequest` throws before it looks at the size of the request. -/
def refusal (p : Platform) (message : Value) : Option JsText :=
  if isProxyRequest message = false then some (ofString "invalid_proxy_request")
  else
    match p.headersError ((message.get "headers").coalesce (.obj [])) with
    | some error => some error
    | none => if isBody (message.get "bodyBase64") then none else some (ofString "invalid_proxy_body")

def requestTooLarge (message : Value) : Bool :=
  match message.get "bodyBase64" with
  | .str s => maxProxyBodyBase64Chars < s.length || maxProxyBodyBytes < decodedLength s
  | _ => false

def base64 (body : Bytes) : JsText := (Base64.encodePadded body).map (fun ch => UInt16.ofNat ch.toNat)

def proxyResponse (requestId : Value) (status : Nat) (headers : Members) (body : Bytes) : JsText :=
  stringify 0 (.obj
    [(ofString "type",.lit "proxy-response"),(ofString "requestId",requestId),
     (ofString "status",.num status),(ofString "headers",.obj headers),
     (ofString "bodyBase64",.str (base64 body))])

def jsonHeaders : Members := [(ofString "content-type",.lit "application/json")]

def errorBody (error : JsText) : Bytes := encodeUtf8 (stringify 0 (.obj [(ofString "error",.str error)]))

def errorResponse (requestId : Value) (error : JsText) : JsText :=
  proxyResponse requestId 502 jsonHeaders (errorBody error)

/-- The loop of `readBodyWithLimit`. -/
def readChunks (limit : Nat) (failure : Option JsText) : Nat → Bytes → List Bytes → Except JsText Bytes
  | _, done, [] =>
    match failure with
    | some error => .error error
    | none => .ok done
  | total, done, chunk :: rest =>
    if limit < total+chunk.length then .error (ofString "proxy_response_too_large")
    else readChunks limit failure (total+chunk.length) (done ++ chunk) rest

def readBodyWithLimit (r : Response) (limit : Nat) : Except JsText Bytes :=
  readChunks limit r.failure 0 [] r.chunks

/-- `toLowerCase` on a header name, which is ASCII. -/
def toLowerCase (key : JsText) : JsText :=
  key.map (fun u => if 0x41 ≤ u && u ≤ 0x5a then u+0x20 else u)

def hopHeaders : List JsText :=
  [ofString "transfer-encoding",ofString "content-encoding",ofString "connection"]

/-- `result` is an object literal, which takes no text under `__proto__`. -/
def filterResponseHeaders (headers : List (JsText × JsText)) : Members :=
  headers.foldl (fun result (key,value) =>
    if hopHeaders.contains (toLowerCase key) || key = protoKey then result
    else setMember key (.str value) result) []

/-- The text that `proxyLocalRequest` sends. The local server is asked when nothing is refused. -/
def proxyLocalRequest (p : Platform) (message : Value) (answer : LocalAnswer) : JsText :=
  let requestId := message.get "requestId"
  match refusal p message with
  | some error => errorResponse requestId error
  | none =>
    if requestTooLarge message then
      proxyResponse requestId 413 jsonHeaders (errorBody (ofString "request_too_large"))
    else
      match answer with
      | .failed error => errorResponse requestId error
      | .response r =>
        match readBodyWithLimit r maxProxyBodyBytes with
        | .error error => errorResponse requestId error
        | .ok body => proxyResponse requestId r.status (filterResponseHeaders r.headers) body

/-- The frame made of a message of the local event socket, unless it is not JSON. -/
def gatewayEvent (raw : JsText) : Option JsText :=
  (parse raw).map (fun payload =>
    stringify 0 (.obj [(ofString "type",.lit "gateway-event"),(ofString "payload",payload)]))

inductive Emission where
  | proxy (message : Value) (answer : LocalAnswer)
  | event (raw : JsText)

def Emission.frame (p : Platform) : Emission → Option JsText
  | .proxy message answer => some (proxyLocalRequest p message answer)
  | .event raw => gatewayEvent raw

/-- What is sent fits the relay, and a response beyond the limit is answered with an error. -/
structure Emission.Fits (p : Platform) (e : Emission) : Prop where
  frame : ∀ frame, e.frame p = some frame → byteLength frame ≤ wsMessageLimit
  larger : ∀ message r, e = .proxy message (.response r) → refusal p message = none →
    requestTooLarge message = false → maxProxyBodyBytes < r.length →
      e.frame p = some (errorResponse (message.get "requestId") (ofString "proxy_response_too_large"))

/-- The member `requestId` with its comma; a missing one is left out. -/
def requestIdSize : Value → Nat
  | .undefined => 0
  | requestId => 13+size (carried requestId)

/-- A `proxy-response` around a body of so many bytes, of which three take four. -/
def responseSize (requestId : Value) (status : Nat) (headers : Members) (bytes : Nat) : Nat :=
  62+requestIdSize requestId+size (.num status)+size (.obj headers)+4*((bytes+2)/3)

def errorSize (requestId : Value) (error : JsText) : Nat :=
  responseSize requestId 502 jsonHeaders (12+unitsSize error)

/-- The sizes that go unchecked: of a payload, of an error text, and of a body within the limit
with its headers. -/
def Emission.Small (p : Platform) : Emission → Prop
  | .event raw => ∀ payload, parse raw = some payload → 35+size (carried payload) ≤ wsMessageLimit
  | .proxy message answer =>
    let requestId := message.get "requestId"
    match refusal p message with
    | some error => errorSize requestId error ≤ wsMessageLimit
    | none =>
      requestTooLarge message = true ∨
        match answer with
        | .failed error => errorSize requestId error ≤ wsMessageLimit
        | .response r =>
          maxProxyBodyBytes < r.length ∨
            match r.failure with
            | some error => errorSize requestId error ≤ wsMessageLimit
            | none =>
              responseSize requestId r.status (filterResponseHeaders r.headers) r.length ≤
                wsMessageLimit

section Sizes

variable {requestId : Value} {status : Nat} {headers : Members}

def Texts (headers : Members) : Prop := ∀ m ∈ headers, ∃ s, m.2 = .str s

theorem texts_filterResponseHeaders (headers : List (JsText × JsText)) :
    Texts (filterResponseHeaders headers) := by
  have hfold : ∀ result : Members, Texts result →
      Texts (headers.foldl (fun result (key,value) =>
        if hopHeaders.contains (toLowerCase key) || key = protoKey then result
        else setMember key (.str value) result) result) := by
    induction headers with
    | nil => exact fun result h => h
    | cons header headers ih =>
      intro result h
      refine ih _ ?_
      dsimp only
      split_ifs
      · exact h
      · intro m hm
        rcases mem_setMember hm with rfl | hm
        · exact ⟨_,rfl⟩
        · exact h m hm
  exact hfold [] nofun

theorem carriedMembers_texts (h : Texts headers) : carriedMembers headers = headers := by
  induction headers with
  | nil => rfl
  | cons m headers ih =>
    obtain ⟨key,v⟩ := m
    obtain ⟨s,rfl⟩ := h (key,v) List.mem_cons_self
    rw [carriedMembers,carried,ih (fun n hn => h n (List.mem_cons_of_mem _ hn))]
    intro none
    cases none

theorem unitsSize_base64 (body : Bytes) : unitsSize (base64 body) = 4*((body.length+2)/3) := by
  rw [unitsSize_plain,base64,List.length_map,Base64.length_encodePadded]
  intro u hu
  obtain ⟨ch,hch,rfl⟩ := List.mem_map.mp hu
  obtain ⟨habove,hbelow,hne⟩ := Base64.encodePadded_range body ch hch
  have hunit : (UInt16.ofNat ch.toNat).toNat = ch.toNat :=
    UInt16.toNat_ofNat_of_lt' (show _ < 0x10000 by omega)
  refine ⟨⟨by omega,by omega⟩,?_,?_⟩
  · intro heq
    have hnat := congrArg UInt16.toNat heq
    rw [hunit] at hnat
    have hquote : (0x22 : UInt16).toNat = 0x22 := rfl
    omega
  · intro heq
    have hnat := congrArg UInt16.toNat heq
    rw [hunit] at hnat
    exact hne hnat

theorem carriedMembers_cons {key : JsText} {v : Value} {ms : Members} (h : v ≠ .undefined) :
    carriedMembers ((key,v) :: ms) = (key,carried v) :: carriedMembers ms := by
  rw [carriedMembers]
  exact fun heq => h heq

theorem requestIdSize_eq (h : requestId ≠ .undefined) :
    requestIdSize requestId = 13+size (carried requestId) := by
  rw [requestIdSize]
  exact fun heq => h heq

theorem size_obj (members : Members) :
    size (.obj members) = 2+(memberSizes members).sum+(members.length-1) := by
  rw [size]

theorem sum_memberSizes_cons (key : JsText) (v : Value) (ms : Members) :
    (memberSizes ((key,v) :: ms)).sum = 3+unitsSize key+size v+(memberSizes ms).sum := by
  rw [memberSizes,List.sum_cons]
  omega

theorem size_text (s : JsText) : size (.str s) = 2+unitsSize s := by
  rw [size]

theorem byteLength_proxyResponse (htexts : Texts headers) (body : Bytes) :
    byteLength (proxyResponse requestId status headers body) =
      responseSize requestId status headers body.length := by
  have hnames : unitsSize (ofString "type") = 4 ∧ unitsSize (ofString "requestId") = 9 ∧
      unitsSize (ofString "status") = 6 ∧ unitsSize (ofString "headers") = 7 ∧
      unitsSize (ofString "bodyBase64") = 10 ∧ unitsSize (ofString "proxy-response") = 14 := by decide
  obtain ⟨htype,hrequestId,hstatus,hheaders,hbody,hresponse⟩ := hnames
  have hrest : carriedMembers
      [(ofString "status",.num status),(ofString "headers",.obj headers),
        (ofString "bodyBase64",.str (base64 body))] =
      [(ofString "status",.num status),(ofString "headers",.obj headers),
        (ofString "bodyBase64",.str (base64 body))] := by
    simp only [carriedMembers,carried,carriedMembers_texts htexts]
  have hsizes : (memberSizes [(ofString "status",.num status),(ofString "headers",.obj headers),
      (ofString "bodyBase64",.str (base64 body))]).sum =
      34+size (.num status)+size (.obj headers)+4*((body.length+2)/3) := by
    simp only [sum_memberSizes_cons,size_text,hstatus,hheaders,hbody,unitsSize_base64]
    rw [memberSizes,List.sum_nil]
    omega
  rw [proxyResponse,byteLength_stringify,responseSize,carried,carriedMembers_cons (by simp [Value.lit])]
  by_cases hid : requestId = .undefined
  · rw [hid,carriedMembers,hrest,size_obj,sum_memberSizes_cons,hsizes,htype,Value.lit,carried,size_text,
      hresponse,requestIdSize]
    simp only [List.length_cons,List.length_nil]
    omega
  · rw [carriedMembers_cons hid,hrest,size_obj,sum_memberSizes_cons,sum_memberSizes_cons,hsizes,htype,
      hrequestId,Value.lit,carried,size_text,hresponse,requestIdSize_eq hid]
    simp only [List.length_cons,List.length_nil]
    omega

theorem length_errorBody (error : JsText) : (errorBody error).length = 12+unitsSize error := by
  have hkey : unitsSize (ofString "error") = 5 := by decide
  rw [errorBody,length_encodeUtf8,byteLength_stringify,carried,carriedMembers_cons (by simp),carriedMembers,
    carried,size_obj,sum_memberSizes_cons,memberSizes,size_text,hkey]
  simp only [List.length_singleton,List.sum_nil]
  omega

theorem texts_jsonHeaders : Texts jsonHeaders := by
  intro m hm
  rw [List.mem_singleton.mp hm]
  exact ⟨_,rfl⟩

theorem byteLength_errorResponse (error : JsText) :
    byteLength (errorResponse requestId error) = errorSize requestId error := by
  rw [errorResponse,byteLength_proxyResponse texts_jsonHeaders,length_errorBody,errorSize]

theorem byteLength_gatewayEvent {payload : Value} (h : payload ≠ .undefined) :
    byteLength (stringify 0 (.obj [(ofString "type",.lit "gateway-event"),(ofString "payload",payload)])) =
      35+size (carried payload) := by
  have hnames : unitsSize (ofString "type") = 4 ∧ unitsSize (ofString "payload") = 7 ∧
      unitsSize (ofString "gateway-event") = 13 := by decide
  obtain ⟨htype,hpayload,hevent⟩ := hnames
  rw [byteLength_stringify,carried,carriedMembers_cons (by simp [Value.lit]),carriedMembers_cons h,
    carriedMembers,size_obj,sum_memberSizes_cons,sum_memberSizes_cons,memberSizes,Value.lit,carried,
    size_text,htype,hpayload,hevent]
  simp only [List.sum_nil,List.length_cons,List.length_nil]
  omega

end Sizes

section Fitting

variable {p : Platform} {message : Value}

theorem readChunks_eq {limit : Nat} {failure : Option JsText} (chunks : List Bytes) {total : Nat}
    (done : Bytes) (h : total ≤ limit) :
    readChunks limit failure total done chunks =
      if limit < total+chunks.flatten.length then .error (ofString "proxy_response_too_large")
      else
        match failure with
        | some error => .error error
        | none => .ok (done ++ chunks.flatten) := by
  induction chunks generalizing total done with
  | nil =>
    rw [List.flatten_nil,List.length_nil,if_neg (by omega),List.append_nil]
    cases failure <;> rfl
  | cons chunk rest ih =>
    rw [readChunks,List.flatten_cons,List.length_append]
    by_cases hlong : limit < total+chunk.length
    · rw [if_pos hlong,if_pos (by omega)]
    · rw [if_neg hlong,ih (done ++ chunk) (by omega),Nat.add_assoc,List.append_assoc]

theorem readBodyWithLimit_eq (r : Response) (limit : Nat) :
    readBodyWithLimit r limit =
      if limit < r.length then .error (ofString "proxy_response_too_large")
      else
        match r.failure with
        | some error => .error error
        | none => .ok r.chunks.flatten := by
  rw [readBodyWithLimit,readChunks_eq r.chunks [] (Nat.zero_le limit),Nat.zero_add,List.nil_append,
    Response.length]

theorem requestIdSize_le (h : refusal p message = none) :
    requestIdSize (message.get "requestId") ≤ 735 := by
  have hshape : isProxyRequest message = true := by
    by_contra hshape
    rw [refusal,if_pos (Bool.eq_false_iff.mpr hshape)] at h
    cases h
  unfold isProxyRequest at hshape
  split at hshape
  · rename_i requestId path method hid hpath hmethod
    simp only [Bool.and_eq_true,decide_eq_true_eq] at hshape
    have hunits := unitsSize_le requestId
    rw [hid,requestIdSize_eq (by simp),carried,size_text]
    omega
  · cases hshape

theorem short_fits (h : refusal p message = none) {status : Nat} {error : JsText}
    (hstatus : size (.num status) ≤ 3) (herror : unitsSize error ≤ 64) :
    responseSize (message.get "requestId") status jsonHeaders (12+unitsSize error) ≤ wsMessageLimit := by
  have hid := requestIdSize_le h
  have hheaders : size (.obj jsonHeaders) = 35 := by decide
  rw [responseSize,hheaders,wsMessageLimit]
  omega

theorem size_status : size (.num (413 : Nat)) ≤ 3 ∧ size (.num (502 : Nat)) ≤ 3 := by
  decide +kernel

theorem proxyLocalRequest_larger {r : Response} (h : refusal p message = none)
    (hrequest : requestTooLarge message = false) (hlong : maxProxyBodyBytes < r.length) :
    proxyLocalRequest p message (.response r) =
      errorResponse (message.get "requestId") (ofString "proxy_response_too_large") := by
  simp only [proxyLocalRequest,h,hrequest,Bool.false_eq_true,if_false,readBodyWithLimit_eq,if_pos hlong]

theorem byteLength_proxyLocalRequest_le (answer : LocalAnswer) :
    byteLength (proxyLocalRequest p message answer) ≤ wsMessageLimit ↔
      (Emission.proxy message answer).Small p := by
  unfold Emission.Small proxyLocalRequest
  dsimp only
  cases hrefusal : refusal p message with
  | some error =>
    dsimp only
    rw [byteLength_errorResponse]
  | none =>
    dsimp only
    cases hrequest : requestTooLarge message with
    | true =>
      rw [if_pos rfl,byteLength_proxyResponse texts_jsonHeaders,length_errorBody]
      exact iff_of_true (short_fits hrefusal size_status.1 (by decide)) (.inl rfl)
    | false =>
      rw [if_neg Bool.false_ne_true,or_iff_right Bool.false_ne_true]
      cases answer with
      | failed error =>
        dsimp only
        rw [byteLength_errorResponse]
      | response r =>
        dsimp only
        rw [readBodyWithLimit_eq]
        by_cases hlong : maxProxyBodyBytes < r.length
        · rw [if_pos hlong]
          dsimp only
          rw [byteLength_errorResponse]
          exact iff_of_true (short_fits hrefusal size_status.2 (by decide)) (.inl hlong)
        · rw [if_neg hlong,or_iff_right hlong]
          cases r.failure with
          | some error =>
            dsimp only
            rw [byteLength_errorResponse]
          | none =>
            dsimp only
            rw [byteLength_proxyResponse (texts_filterResponseHeaders r.headers),Response.length]

/-- A frame fits the relay precisely when the base64 of its body, its headers and its other texts
leave it within the relay's limit; the limit on the body alone does not see to that. -/
theorem frames_fit_iff (p : Platform) (e : Emission) : e.Fits p ↔ e.Small p := by
  have hlarger : ∀ message r, e = .proxy message (.response r) → refusal p message = none →
      requestTooLarge message = false → maxProxyBodyBytes < r.length →
        e.frame p = some (errorResponse (message.get "requestId")
          (ofString "proxy_response_too_large")) := by
    rintro message r rfl hrefusal hrequest hlong
    rw [Emission.frame,proxyLocalRequest_larger hrefusal hrequest hlong]
  have hfits : e.Fits p ↔ ∀ frame, e.frame p = some frame → byteLength frame ≤ wsMessageLimit :=
    ⟨fun h => h.frame,fun h => ⟨h,hlarger⟩⟩
  rw [hfits]
  cases e with
  | proxy message answer =>
    rw [← byteLength_proxyLocalRequest_le]
    constructor
    · exact fun h => h _ rfl
    · rintro h frame heq
      cases heq
      exact h
  | event raw =>
    constructor
    · intro h payload hparse
      have hdefined : payload ≠ .undefined := fun hnone => parse_ne_undefined raw (hnone ▸ hparse)
      rw [← byteLength_gatewayEvent hdefined]
      exact h _ (by rw [Emission.frame,gatewayEvent,hparse,Option.map_some])
    · intro h frame hframe
      obtain ⟨payload,hparse,rfl⟩ := Option.map_eq_some_iff.mp hframe
      have hdefined : payload ≠ .undefined := fun hnone => parse_ne_undefined raw (hnone ▸ hparse)
      rw [byteLength_gatewayEvent hdefined]
      exact h payload hparse

end Fitting

namespace Sample

def platform : Platform := { headersError := fun _ => none }

def request : Value :=
  .obj [(ofString "requestId",.lit "r1"),(ofString "method",.lit "GET"),(ofString "path",.lit "/")]

/-- Twelve mebibytes, a quarter below the limit on a body. -/
def download : Response := { status := 200, chunks := [List.replicate (12*2^20) 0] }

end Sample

/-- A body well within its limit makes a frame on which the relay closes the device. -/
theorem download_not_fits :
    Sample.download.length ≤ maxProxyBodyBytes ∧ refusal Sample.platform Sample.request = none ∧
      requestTooLarge Sample.request = false ∧
      ¬ (Emission.proxy Sample.request (.response Sample.download)).Fits Sample.platform := by
  have hlength : Sample.download.length = 12*2^20 := by
    simp only [Response.length,Sample.download,List.flatten_singleton,List.length_replicate]
  have hrefusal : refusal Sample.platform Sample.request = none := by decide
  have hrequest : requestTooLarge Sample.request = false := by decide
  refine ⟨by rw [hlength]; decide,hrefusal,hrequest,?_⟩
  intro h
  have hsmall := (byteLength_proxyLocalRequest_le _).mp (h.frame _ rfl)
  unfold Emission.Small at hsmall
  simp only [hrefusal,hrequest,Bool.false_eq_true,false_or,hlength] at hsmall
  have hsize := hsmall.resolve_left (by decide)
  simp only [Sample.download,responseSize,wsMessageLimit] at hsize
  omega

end CodeHarbor.Network.Frames
