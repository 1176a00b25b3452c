import Tonbankcard.Journal
import Tonbankcard.SecretCipher
import Tonbankcard.WebhookAgreement

/-! The delivery service for webhooks over its runs. Registrations and deliveries wait for the check
of their URL and may overlap; between two answers a call is atomic. The answers of the check, the
generator's bytes and the clock come with the events. -/
namespace Tonbankcard.WebhookService

open EcmaScript Sdk SecretCipher

section Service

structure WebhookEndpoint where
  endpointId : JsString
  url : JsString
  secretEncrypted : JsString
  merchantNft : JsString
  createdAt : JsString
  isActive : Bool

/-- A call of `register` that waits for the check of its URL. -/
structure Registration where
  merchantNft : JsString
  url : JsString
  secret : List Char

/-- A call of `deliver` that waits for it, with the body that it was given. -/
structure Delivery where
  endpoint : WebhookEndpoint
  rawBody : List UInt8
  timestamp : Option ℤ

structure State where
  endpoints : JsMap JsString WebhookEndpoint
  registering : List Registration
  delivering : List Delivery

def State.start : State := ⟨.empty,[],[]⟩

/-- How `assertSafeWebhookUrl` fails: with an `SsrfError`, or otherwise. -/
inductive CheckFailure where
  | ssrf (message : JsString)
  | other (error : JsString)

def CheckFailure.text : CheckFailure → JsString
  | .ssrf message => js "SSRF guard: " ++ message
  | .other error => error

inductive Event where
  | register (merchantNft url : JsString) (secret : List Char)
  | registerChecked (index : Nat) (checked : Except CheckFailure Unit)
      (randomBytes : Vector UInt8 8) (iv : Vector UInt8 12) (createdAt : JsString)
  | deactivate (endpointId : JsString)
  | clearAll
  | deliver (endpointId : JsString) (rawBody : List UInt8) (timestamp : Option ℤ)
  | deliverChecked (index : Nat) (checked : Except CheckFailure Unit) (now : ℤ)

/-- A request that leaves the service. -/
structure Post where
  url : JsString
  signature : List Char
  body : List UInt8
  deriving DecidableEq

inductive Output where
  | waiting
  | registered (endpoint : WebhookEndpoint)
  | refused (failure : CheckFailure)
  | deactivated (known : Bool)
  | cleared
  | failed (error : JsString)
  | posted (post : Post)

def Output.post? : Output → Option Post
  | .posted post => some post
  | _ => none

variable {Payload : Type} (aead : Aead) (keyMaterial : List Char) (host : WebhookHost Payload)

def endpointIdOf (randomBytes : Vector UInt8 8) : JsString :=
  js "wh_" ++ (encodeHex randomBytes.toList).map fun c => UInt16.ofNat c.toNat

def newEndpoint (registration : Registration) (randomBytes : Vector UInt8 8)
    (iv : Vector UInt8 12) (createdAt : JsString) : WebhookEndpoint where
  endpointId := endpointIdOf randomBytes
  url := registration.url
  secretEncrypted := encrypt aead keyMaterial iv.toList registration.secret
  merchantNft := registration.merchantNft
  createdAt
  isActive := true

/-- The rest of a delivery once its URL is checked. -/
def send (delivery : Delivery) (now : ℤ) : Output :=
  match decrypt aead keyMaterial delivery.endpoint.secretEncrypted with
  | .error message => .failed (js "Secret decryption failed: " ++ message)
  | .ok secret => .posted
      { url := delivery.endpoint.url
        signature := signWebhook host secret delivery.rawBody (delivery.timestamp.getD now)
        body := delivery.rawBody }

def step (s : State) : Event → Option (State × Output)
  | .register merchantNft url secret =>
    some ({s with registering := s.registering ++ [⟨merchantNft,url,secret⟩]},.waiting)
  | .registerChecked index checked randomBytes iv createdAt =>
    s.registering[index]?.map fun registration =>
      let s := {s with registering := s.registering.eraseIdx index}
      match checked with
      | .error failure => (s,.refused failure)
      | .ok () =>
        let endpoint := newEndpoint aead keyMaterial registration randomBytes iv createdAt
        ({s with endpoints := s.endpoints.set endpoint.endpointId endpoint},.registered endpoint)
  | .deactivate endpointId =>
    match s.endpoints.get endpointId with
    | none => some (s,.deactivated false)
    | some endpoint =>
      some ({s with endpoints := s.endpoints.set endpointId {endpoint with isActive := false}},
        .deactivated true)
  | .clearAll => some ({s with endpoints := .empty},.cleared)
  | .deliver endpointId rawBody timestamp =>
    match s.endpoints.get endpointId with
    | none => some (s,.failed (js "Unknown webhook endpoint: " ++ endpointId))
    | some endpoint =>
      if endpoint.isActive then
        some ({s with delivering := s.delivering ++ [⟨endpoint,rawBody,timestamp⟩]},.waiting)
      else some (s,.failed (js "Endpoint is deactivated"))
  | .deliverChecked index checked now =>
    s.delivering[index]?.map fun delivery =>
      let s := {s with delivering := s.delivering.eraseIdx index}
      match checked with
      | .error failure => (s,.failed failure.text)
      | .ok () => (s,send aead keyMaterial host delivery now)

abbrev Entry := Journal.Entry State Event Output

end Service

section Runs

variable {Payload : Type} {aead : Aead} {keyMaterial : List Char} {host : WebhookHost Payload}

/-- An endpoint as it was handed out to whoever registered it with a secret. -/
structure Issued (aead : Aead) (keyMaterial : List Char) (past : List Entry)
    (endpoint : WebhookEndpoint) (secret : List Char) : Prop where
  asked : ∃ call ∈ past, call.input = .register endpoint.merchantNft endpoint.url secret
  handed : ∃ answer ∈ past, (∃ index randomBytes iv createdAt,
    answer.input = .registerChecked index (.ok ()) randomBytes iv createdAt) ∧
      answer.output = .registered endpoint
  kept : decrypt aead keyMaterial endpoint.secretEncrypted = .ok secret

/-- A delivery that found its endpoint active. -/
def Begun (past : List Entry) (endpoint : WebhookEndpoint) (rawBody : List UInt8)
    (timestamp : Option ℤ) : Prop :=
  ∃ call ∈ past, call.input = .deliver endpoint.endpointId rawBody timestamp ∧
    call.before.endpoints.get endpoint.endpointId = some endpoint ∧ endpoint.isActive = true

structure Sound (aead : Aead) (keyMaterial : List Char) (past : List Entry) (s : State) :
    Prop where
  registering : ∀ registration ∈ s.registering, ∃ call ∈ past,
    call.input = .register registration.merchantNft registration.url registration.secret
  stored : ∀ endpointId endpoint, s.endpoints.get endpointId = some endpoint →
    endpoint.endpointId = endpointId ∧
      ∃ secret, Issued aead keyMaterial past {endpoint with isActive := true} secret
  delivering : ∀ delivery ∈ s.delivering,
    Begun past delivery.endpoint delivery.rawBody delivery.timestamp ∧
      ∃ secret, Issued aead keyMaterial past delivery.endpoint secret

theorem Issued.later (entry : Entry) (issued : Issued aead keyMaterial past endpoint secret) :
    Issued aead keyMaterial (entry :: past) endpoint secret := by
  obtain ⟨⟨call,called,asked⟩,⟨answer,answered,handed⟩,kept⟩ := issued
  exact ⟨⟨call,List.mem_cons_of_mem _ called,asked⟩,
    ⟨answer,List.mem_cons_of_mem _ answered,handed⟩,kept⟩

theorem Begun.later (entry : Entry) (begun : Begun past endpoint rawBody timestamp) :
    Begun (entry :: past) endpoint rawBody timestamp := by
  obtain ⟨call,called,begun⟩ := begun
  exact ⟨call,List.mem_cons_of_mem _ called,begun⟩

/-- What is known stays known when a step leaves the service as it is. -/
theorem Sound.later (entry : Entry) (sound : Sound aead keyMaterial past s) :
    Sound aead keyMaterial (entry :: past) s where
  registering registration member := by
    obtain ⟨call,called,asked⟩ := sound.registering registration member
    exact ⟨call,List.mem_cons_of_mem _ called,asked⟩
  stored endpointId endpoint found := by
    obtain ⟨same,secret,issued⟩ := sound.stored endpointId endpoint found
    exact ⟨same,secret,issued.later entry⟩
  delivering delivery member := by
    obtain ⟨begun,secret,issued⟩ := sound.delivering delivery member
    exact ⟨begun.later entry,secret,issued.later entry⟩

theorem active_same {endpoint : WebhookEndpoint} (active : endpoint.isActive = true) :
    {endpoint with isActive := true} = endpoint := by
  cases endpoint
  simp_all

theorem sound_step (past : List Entry) (s : State) (event : Event) (next : State)
    (output : Output) (sound : Sound aead keyMaterial past s)
    (stepped : step aead keyMaterial host s event = some (next,output)) :
    Sound aead keyMaterial (⟨s,event,next,output⟩ :: past) next := by
  have later := sound.later ⟨s,event,next,output⟩
  cases event with
  | register merchantNft url secret =>
    obtain ⟨rfl,rfl⟩ := Prod.mk.inj (Option.some.inj stepped)
    refine ⟨fun registration member => ?_,later.stored,later.delivering⟩
    rcases List.mem_append.mp member with older | newest
    · exact later.registering registration older
    · obtain rfl := List.mem_singleton.mp newest
      exact ⟨_,List.mem_cons_self,rfl⟩
  | registerChecked index checked randomBytes iv createdAt =>
    obtain ⟨registration,waiting,same⟩ := Option.map_eq_some_iff.mp stepped
    have fewer : ∀ other ∈ s.registering.eraseIdx index, other ∈ s.registering :=
      fun _ => List.mem_of_mem_eraseIdx
    cases checked with
    | error failure =>
      obtain ⟨rfl,rfl⟩ := Prod.mk.inj same
      exact ⟨fun other member => later.registering other (fewer other member),later.stored,
        later.delivering⟩
    | ok =>
      obtain ⟨rfl,rfl⟩ := Prod.mk.inj same
      refine ⟨fun other member => later.registering other (fewer other member),?_,
        later.delivering⟩
      intro endpointId endpoint found
      rw [JsMap.get_set] at found
      split at found
      next same =>
        obtain rfl := Option.some.inj found
        obtain ⟨call,called,asked⟩ :=
          sound.registering registration (List.mem_of_getElem? waiting)
        refine ⟨same.symm,registration.secret,⟨call,List.mem_cons_of_mem _ called,asked⟩,
          ⟨_,List.mem_cons_self,⟨_,_,_,_,rfl⟩,rfl⟩,decrypt_encrypt iv.length_toList _⟩
      next => exact later.stored endpointId endpoint found
  | deactivate endpointId =>
    cases known : s.endpoints.get endpointId with
    | none =>
      simp only [step,known] at stepped
      obtain ⟨rfl,rfl⟩ := Prod.mk.inj (Option.some.inj stepped)
      exact later
    | some endpoint =>
      simp only [step,known] at stepped
      obtain ⟨rfl,rfl⟩ := Prod.mk.inj (Option.some.inj stepped)
      refine ⟨later.registering,fun other stored found => ?_,later.delivering⟩
      rw [JsMap.get_set] at found
      split at found
      next same =>
        obtain rfl := Option.some.inj found
        rw [same]
        exact later.stored endpointId endpoint known
      next => exact later.stored other stored found
  | clearAll =>
    obtain ⟨rfl,rfl⟩ := Prod.mk.inj (Option.some.inj stepped)
    exact ⟨later.registering,fun _ _ found => by simp at found,later.delivering⟩
  | deliver endpointId rawBody timestamp =>
    cases known : s.endpoints.get endpointId with
    | none =>
      simp only [step,known] at stepped
      obtain ⟨rfl,rfl⟩ := Prod.mk.inj (Option.some.inj stepped)
      exact later
    | some endpoint =>
      simp only [step,known] at stepped
      split at stepped
      next active =>
        obtain ⟨rfl,rfl⟩ := Prod.mk.inj (Option.some.inj stepped)
        refine ⟨later.registering,later.stored,fun delivery member => ?_⟩
        rcases List.mem_append.mp member with older | newest
        · exact later.delivering delivery older
        · obtain rfl := List.mem_singleton.mp newest
          obtain ⟨named,secret,issued⟩ := later.stored endpointId endpoint known
          rw [active_same active] at issued
          refine ⟨⟨_,List.mem_cons_self,?_,?_,active⟩,secret,issued⟩
          · rw [named]
          · rw [named]
            exact known
      next =>
        obtain ⟨rfl,rfl⟩ := Prod.mk.inj (Option.some.inj stepped)
        exact later
  | deliverChecked index checked now =>
    obtain ⟨delivery,waiting,same⟩ := Option.map_eq_some_iff.mp stepped
    have fewer : ∀ other ∈ s.delivering.eraseIdx index, other ∈ s.delivering :=
      fun _ => List.mem_of_mem_eraseIdx
    cases checked <;> obtain ⟨rfl,rfl⟩ := Prod.mk.inj same
    all_goals exact ⟨later.registering,later.stored,fun other member =>
      later.delivering other (fewer other member)⟩

theorem run_sound (events : List Event) :
    Sound aead keyMaterial
      (Journal.journal (step aead keyMaterial host) State.start events)
      (Journal.run (step aead keyMaterial host) State.start events) :=
  Journal.invariant (Sound aead keyMaterial)
    ⟨fun _ member => absurd member List.not_mem_nil,fun _ _ found => by simp [State.start] at found,
      fun _ member => absurd member List.not_mem_nil⟩ sound_step events

/-- The three verifiers on a header that the server signed near the clock. -/
theorem signed_verdicts (host : WebhookHost Payload) (secret : List Char) (body : List UInt8)
    {now timestamp : ℤ} {tolerance : Nat}
    (nonblank : trim jsSpace secret ≠ [] ∧ trim goSpace secret ≠ [] ∧ trim pySpace secret ≠ [])
    (valid : (host.goPayload body).isSome = true ∧ (host.pyPayload body).isSome = true)
    (small : tolerance < 2^31) (whole : 1 ≤ timestamp ∧ timestamp ≤ maxSafeInteger)
    (near : |now - timestamp| ≤ tolerance) :
    tsVerdict host secret body (signWebhook host secret body timestamp) now tolerance = true ∧
      goVerdict host secret body (signWebhook host secret body timestamp) now tolerance = true ∧
      pyVerdict host secret body (signWebhook host secret body timestamp) now tolerance = true := by
  obtain ⟨shown,signed,keyed,single⟩ := signWebhook_read host secret body timestamp
  obtain ⟨time,short⟩ := signWebhook_time host secret body whole
  have signed := signed.mpr whole
  rw [← time] at near
  refine ⟨?_,?_,?_⟩
  · rw [tsVerdict,tsAccepts_iff nonblank.1 shown,tsFresh_iff small]
    exact ⟨signed,keyed,near⟩
  · rw [goVerdict,goAccepts_iff nonblank.2.1 valid.1 shown,goFresh_iff _ _ small]
    exact ⟨signed,single,.inl near⟩
  · rw [pyVerdict,pyAccepts_iff nonblank.2.2 valid.2 shown,pyFresh_iff]
    exact ⟨signed,single,short,near⟩

/-- Only a delivery whose check went well sends anything. -/
theorem step_posted {s next : State} {event : Event} {post : Post}
    (stepped : step aead keyMaterial host s event = some (next,.posted post)) :
    ∃ index now delivery, event = .deliverChecked index (.ok ()) now ∧ delivery ∈ s.delivering ∧
      send aead keyMaterial host delivery now = .posted post := by
  cases event with
  | register => simp [step] at stepped
  | clearAll => simp [step] at stepped
  | registerChecked index checked randomBytes iv createdAt =>
    obtain ⟨_,-,same⟩ := Option.map_eq_some_iff.mp stepped
    cases checked <;> cases (Prod.mk.inj same).2
  | deactivate endpointId =>
    simp only [step] at stepped
    split at stepped <;> cases (Prod.mk.inj (Option.some.inj stepped)).2
  | deliver endpointId =>
    simp only [step] at stepped
    split at stepped
    · cases (Prod.mk.inj (Option.some.inj stepped)).2
    · split at stepped <;> cases (Prod.mk.inj (Option.some.inj stepped)).2
  | deliverChecked index checked now =>
    obtain ⟨delivery,waiting,same⟩ := Option.map_eq_some_iff.mp stepped
    cases checked with
    | error => cases (Prod.mk.inj same).2
    | ok =>
      exact ⟨index,now,delivery,rfl,List.mem_of_getElem? waiting,(Prod.mk.inj same).2⟩

theorem send_posted {delivery : Delivery} {now : ℤ} {post : Post}
    (sent : send aead keyMaterial host delivery now = .posted post) :
    ∃ secret, decrypt aead keyMaterial delivery.endpoint.secretEncrypted = .ok secret ∧
      post = ⟨delivery.endpoint.url,
        signWebhook host secret delivery.rawBody (delivery.timestamp.getD now),
        delivery.rawBody⟩ := by
  simp only [send] at sent
  cases opened : decrypt aead keyMaterial delivery.endpoint.secretEncrypted with
  | error message => simp [opened] at sent
  | ok secret =>
    simp only [opened,Output.posted.injEq] at sent
    exact ⟨secret,rfl,sent.symm⟩

/-- Whatever the service sends, in any run: the endpoint was registered, its URL passed the check
then and again now, it was active when the delivery began, and the signature is one that the
registered secret proves to the verifiers of all three SDKs. -/
theorem run_posts (events : List Event) {entry : Entry} {older : List Entry} {post : Post}
    (suffix : entry :: older <:+
      Journal.journal (step aead keyMaterial host) State.start events)
    (posted : entry.output = .posted post) :
    ∃ endpoint secret timestamp signedAt,
      Issued aead keyMaterial older endpoint secret ∧
      Begun older endpoint post.body timestamp ∧ post.url = endpoint.url ∧
      (∃ index now, entry.input = .deliverChecked index (.ok ()) now ∧
        signedAt = timestamp.getD now) ∧
      post.signature = signWebhook host secret post.body signedAt ∧
      ∀ (clock : ℤ) (tolerance : Nat), tolerance < 2^31 → |clock - signedAt| ≤ tolerance →
        1 ≤ signedAt ∧ signedAt ≤ maxSafeInteger →
        trim jsSpace secret ≠ [] ∧ trim goSpace secret ≠ [] ∧ trim pySpace secret ≠ [] →
        (host.goPayload post.body).isSome = true ∧ (host.pyPayload post.body).isSome = true →
        tsVerdict host secret post.body post.signature clock tolerance = true ∧
          goVerdict host secret post.body post.signature clock tolerance = true ∧
          pyVerdict host secret post.body post.signature clock tolerance = true := by
  obtain ⟨past,-,rfl,before,accepted⟩ := Journal.suffix_origin suffix
  have sound := @run_sound _ aead keyMaterial host past
  rw [← before] at sound
  rw [posted] at accepted
  obtain ⟨index,now,delivery,called,waiting,sent⟩ := step_posted accepted
  obtain ⟨begun,secret,issued⟩ := sound.delivering delivery waiting
  obtain ⟨opened,recovered,rfl⟩ := send_posted sent
  obtain rfl := Except.ok.inj (issued.kept.symm.trans recovered)
  exact ⟨delivery.endpoint,secret,delivery.timestamp,_,issued,begun,rfl,⟨index,now,called,rfl⟩,rfl,
    fun clock tolerance small near whole nonblank valid =>
      signed_verdicts host secret delivery.rawBody nonblank valid small whole near⟩

theorem mask_twice (mask : Nat → UInt8) (data : List UInt8) :
    ((data.mapIdx fun i byte => byte ^^^ mask i).mapIdx fun i byte => byte ^^^ mask i) = data := by
  refine List.ext_getElem (by simp) fun i _ _ => ?_
  rw [List.getElem_mapIdx,List.getElem_mapIdx,UInt8.xor_assoc,UInt8.xor_self,UInt8.xor_zero]

/-- A cipher that has the values of AES-256-GCM on the sample secret, under the key of the
passphrase and the nonce 1 to 12. -/
def sampleAead : Aead where
  deriveKey _ := [109,19,187,59,171,150,205,63,188,171,132,75,123,201,30,188,135,215,210,89,249,80,
    54,204,183,179,166,66,131,254,226,160]
  encipher _ _ plaintext :=
    (plaintext.mapIdx fun i byte => byte ^^^ ([29,62,207,108,137] : List UInt8).getD i 0,
      [190,25,194,16,73,28,73,41,221,8,132,67,171,35,154,64])
  decipher _ _ _ ciphertext :=
    .ok (ciphertext.mapIdx fun i byte => byte ^^^ ([29,62,207,108,137] : List UInt8).getD i 0)
  decipher_encipher _ _ plaintext _ := congrArg Except.ok (mask_twice _ plaintext)

def samplePassphrase : List Char := "a passphrase of the operator".toList

def sampleNonce : Vector UInt8 12 := #v[1,2,3,4,5,6,7,8,9,10,11,12]

example : encrypt sampleAead samplePassphrase sampleNonce.toList sampleSecret =
    js "v1:AQIDBAUGBwgJCgsM:vhnCEEkcSSndCIRDqyOaQA==:ala8Ceo=" := by
  decide +kernel

/-- A registration and a delivery, newest first. -/
def sampleEvents : List Event := [
  .deliverChecked 0 (.ok ()) 1700000000,
  .deliver (js "wh_0001020304050607") sampleBody none,
  .registerChecked 0 (.ok ()) #v[0,1,2,3,4,5,6,7] sampleNonce (js "2026-01-01T00:00:00.000Z"),
  .register (js "EQshop") (js "https://shop.example/hooks") sampleSecret]

theorem run_posts_sample : ∃ entry older post,
    entry :: older <:+
      Journal.journal (step sampleAead samplePassphrase sampleHost) State.start sampleEvents ∧
    entry.output = .posted post ∧ post.url = js "https://shop.example/hooks" ∧
    tsVerdict sampleHost sampleSecret post.body post.signature 1700000060 300 = true := by
  have sent : ((Journal.journal (step sampleAead samplePassphrase sampleHost) State.start
      sampleEvents).head?.bind fun entry => entry.output.post?) =
        some ⟨js "https://shop.example/hooks",sampleHeader,sampleBody⟩ := by decide +kernel
  rcases entries : Journal.journal (step sampleAead samplePassphrase sampleHost) State.start
    sampleEvents with _ | ⟨entry,older⟩
  · simp [entries] at sent
  rw [entries] at sent
  have posted :
      entry.output = .posted ⟨js "https://shop.example/hooks",sampleHeader,sampleBody⟩ := by
    cases output : entry.output <;> simp_all [Output.post?]
  have suffix : entry :: older <:+
      Journal.journal (step sampleAead samplePassphrase sampleHost) State.start sampleEvents :=
    entries ▸ List.suffix_refl _
  have among : ∀ call ∈ entry :: older, call.input ∈ sampleEvents := by
    intro call called
    obtain ⟨past,within,-⟩ := Journal.entry_reached (suffix.subset called)
    exact within.subset List.mem_cons_self
  obtain ⟨endpoint,secret,timestamp,signedAt,issued,begun,-,⟨index,now,checked,rfl⟩,-,proves⟩ :=
    run_posts sampleEvents suffix posted
  obtain ⟨call,called,asked⟩ := issued.asked
  have registered := among call (List.mem_cons_of_mem _ called)
  obtain ⟨call,called,asking,-⟩ := begun
  have delivered := among call (List.mem_cons_of_mem _ called)
  have answered := among entry List.mem_cons_self
  rw [asked] at registered
  rw [asking] at delivered
  rw [checked] at answered
  simp only [sampleEvents,List.mem_cons,List.not_mem_nil,reduceCtorEq,false_or,or_false,
    Event.register.injEq,Event.deliver.injEq,Event.deliverChecked.injEq]
    at registered delivered answered
  obtain ⟨-,-,rfl⟩ := registered
  obtain ⟨-,-,rfl⟩ := delivered
  obtain ⟨-,-,rfl⟩ := answered
  have verdicts := proves 1700000060 300 (by decide) (by decide) (by decide) sampleSecret_nonblank
    ⟨rfl,rfl⟩
  exact ⟨entry,older,_,List.suffix_refl _,posted,rfl,verdicts.1⟩

end Runs
end Tonbankcard.WebhookService
