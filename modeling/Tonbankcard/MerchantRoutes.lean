import Tonbankcard.ApiKeyAuthorization
import Tonbankcard.Journal
import Tonbankcard.Json
import Tonbankcard.NumberText
import Tonbankcard.Unicode

/-! The routes of the merchant API that keys stand behind: keys are issued and revoked under the
administrator's token, and a merchant's invoices are shown to the keys of that merchant. Whatever
happens between the two checks of a request, what it shows belongs to a key that is still good. -/
namespace Tonbankcard.MerchantApi.Routes

open EcmaScript Unicode

section Errors

inductive RouteErrorCode where
  | invalidApiKey
  | internalError
  | validation (code : ErrorCode)
  deriving DecidableEq

structure RouteError where
  code : RouteErrorCode
  message : JsString
  deriving DecidableEq

def refuse (code : RouteErrorCode) (message : String) : Except RouteError α :=
  .error ⟨code,js message⟩

def refuseIf (bad : Bool) (code : RouteErrorCode) (message : String) : Except RouteError Unit :=
  if bad then refuse code message else .ok ()

theorem except_bind_ok {first : Except RouteError α} {next : α → Except RouteError β} {value : β} :
    (first >>= next) = .ok value ↔ ∃ middle, first = .ok middle ∧ next middle = .ok value := by
  cases first <;> simp [bind,Except.bind]

theorem refuseIf_bind_ok {bad : Bool} {code : RouteErrorCode} {message : String}
    {next : Unit → Except RouteError α} {value : α} :
    (refuseIf bad code message >>= next) = .ok value ↔ bad = false ∧ next () = .ok value := by
  cases bad <;> simp [refuseIf,refuse,bind,Except.bind]

end Errors

section Requests

/-- What follows `Bearer ` in the header of a request. -/
def bearer (form : String) (authorization : Option JsString) : Except RouteError JsString :=
  match authorization.filter (!·.isEmpty) with
  | none => refuse .invalidApiKey "Authorization header is required"
  | some authHeader =>
    match authHeader.splitOn 32 with
    | [scheme,credential] =>
      if scheme = js "Bearer" then .ok credential
      else refuse .invalidApiKey ("Authorization header must be in format: Bearer " ++ form)
    | _ => refuse .invalidApiKey ("Authorization header must be in format: Bearer " ++ form)

def extractApiKey : Option JsString → Except RouteError JsString := bearer "<API_KEY>"

/-- A comparison of texts of one length but different numbers of bytes throws. -/
def constantTimeStringEqual (a b : JsString) : Except RouteError Bool :=
  if a.length ≠ b.length then .ok false
  else if (encodeUtf8 a).length ≠ (encodeUtf8 b).length then
    refuse .internalError "Internal server error"
  else .ok (encodeUtf8 a = encodeUtf8 b)

/-- The token of the environment, unless it is empty. -/
def requireAdminToken (apiKeyAdminToken authorization : Option JsString) :
    Except RouteError Unit := do
  match apiKeyAdminToken.filter (!·.isEmpty) with
  | none =>
    refuse (.validation .unauthorizedMerchant)
      "Key management is disabled (API_KEY_ADMIN_TOKEN is not configured)"
  | some expected =>
    let token ← bearer "<admin-token>" authorization
    let same ← constantTimeStringEqual token expected
    if same then .ok () else refuse (.validation .unauthorizedMerchant) "Invalid admin token"

end Requests

section Bodies

mutual

/-- `String(value)`, which throws, here `none`, where an object hides `toString`. -/
def stringOf : Json → Option JsString
  | .null => some (js "null")
  | .boolean value => some (js (if value then "true" else "false"))
  | .number value => some value.text
  | .string text => some text
  | .array items => (joined items).map (js ",").intercalate
  | .object members =>
    if members.any (·.1 = js "toString") then none else some (js "[object Object]")

def joined : List Json → Option (List JsString)
  | [] => some []
  | .null :: rest => (joined rest).map ([] :: ·)
  | item :: rest => do
    let text ← stringOf item
    let texts ← joined rest
    return text :: texts

end

inductive ApiKeyEnvironment where
  | live
  | test
  deriving DecidableEq

def parseEnvironment (value : Option Json) : Except RouteError ApiKeyEnvironment :=
  match value with
  | none | some .null => .ok .live
  | some (.string text) =>
    if text = js "live" then .ok .live
    else if text = js "test" then .ok .test
    else refuse (.validation .invalidMetadata) "environment must be \"live\" or \"test\""
  | some _ => refuse (.validation .invalidMetadata) "environment must be \"live\" or \"test\""

def scope : ApiKeyPermission → String
  | .invoiceCreate => "invoice:create"
  | .invoiceRead => "invoice:read"
  | .invoiceStatus => "invoice:status"

def permissionOf (item : Json) : Option ApiKeyPermission :=
  match item with
  | .string text =>
    defaultPermissions.find? fun permission => text = js (scope permission)
  | _ => none

def parseScopes : List Json → Except RouteError (List ApiKeyPermission)
  | [] => .ok []
  | item :: rest =>
    match permissionOf item with
    | some permission => (parseScopes rest).map (permission :: ·)
    | none =>
      match stringOf item with
      | some text => .error ⟨.validation .invalidMetadata,js "Unknown permission scope: " ++ text⟩
      | none => refuse .internalError "Internal server error"

def parsePermissions (value : Option Json) : Except RouteError (List ApiKeyPermission) :=
  match value with
  | none | some .null => .ok defaultPermissions
  | some (.array (item :: items)) => parseScopes (item :: items)
  | some _ =>
    refuse (.validation .invalidMetadata) "permissions must be a non-empty array of scopes"

variable (host : Host) (parseDate : JsString → Option ℤ)

/-- The expiry as it is stored, with the time that it is read back as. -/
def parseExpiresAt (value : Option Json) : Except RouteError (Option ExpiryText) :=
  match value with
  | none | some .null => .ok none
  | some (.string text) =>
    if text.isEmpty then .ok none
    else
      match parseDate text with
      | none =>
        refuse (.validation .invalidMetadata) "expires_at is not a valid ISO 8601 timestamp"
      | some time => .ok (some ⟨host.isoText time,parseDate (host.isoText time)⟩)
  | some _ =>
    refuse (.validation .invalidMetadata) "expires_at must be an ISO 8601 timestamp string"

/-- What a request for a key comes to. -/
structure KeyTerms where
  merchantNft : JsString
  environment : ApiKeyEnvironment
  permissions : List ApiKeyPermission
  expiresAt : Option ExpiryText

def validation (result : Except ValidationError α) : Except RouteError α :=
  result.mapError fun error => ⟨.validation error.code,js error.message⟩

def readKeyRequest (body : Option Json) : Except RouteError KeyTerms := do
  let field := fun name => body.bind fun value => value.property (js name)
  match field "merchant_nft" with
  | some (.string merchantNft) => do
    refuseIf merchantNft.isEmpty (.validation .invalidNftAddress) "merchant_nft is required"
    validation (validateTonAddress merchantNft)
    let environment ← parseEnvironment (field "environment")
    let permissions ← parsePermissions (field "permissions")
    let expiresAt ← parseExpiresAt host parseDate (field "expires_at")
    return {merchantNft,environment,permissions,expiresAt}
  | _ => refuse (.validation .invalidNftAddress) "merchant_nft is required"

def generateApiKey (environment : ApiKeyEnvironment) (random : BitVec 128) : JsString :=
  js (match environment with | .live => "tbc_live_" | .test => "tbc_test_") ++
    fixedDigits 16 32 random.toNat

/-- `/^tbc_(live|test)_[0-9a-f]{32}$/` -/
def isValidApiKeyFormat (key : JsString) : Bool :=
  (key.take 9 = js "tbc_live_" || key.take 9 = js "tbc_test_") && (key.drop 9).length = 32 &&
    (key.drop 9).all fun unit => isDigit unit || (97 ≤ unit && unit ≤ 102)

end Bodies

section Server

/-- The routes that show an invoice to its merchant. -/
inductive Route where
  | status
  | detail
  deriving DecidableEq

def Route.permission : Route → ApiKeyPermission
  | .status => .invoiceStatus
  | .detail => .invoiceRead

structure StatusView where
  invoiceId : JsString
  status : InvoiceStatus
  createdAt : DateString
  expiresAt : DateString
  settlement : Option Settlement
  deriving DecidableEq

inductive View where
  | status (view : StatusView)
  | detail (invoice : Invoice)
  deriving DecidableEq

def Route.view (route : Route) (invoice : Invoice) : View :=
  match route with
  | .detail => .detail invoice
  | .status =>
    .status ⟨invoice.invoiceId,invoice.status,invoice.createdAt,invoice.expiresAt,
      invoice.settlement⟩

/-- A request that has passed its authentication and waits for its invoice. -/
structure Waiting where
  route : Route
  apiKey : JsString
  deriving DecidableEq

structure Server where
  keys : ApiKeyService
  waiting : List Waiting

/-- A request for a key comes with the identifier and the random part drawn for it, and a waiting
request with what the lookup of its invoice came to. -/
inductive Event where
  | createApiKey (authorization : Option JsString) (body : Option Json) (keyId : JsString)
      (random : BitVec 128)
  | revokeApiKey (authorization : Option JsString) (keyId : JsString)
  | authenticate (route : Route) (authorization : Option JsString)
  | fetched (position : Nat) (invoice : Except ValidationError Invoice)

inductive Response where
  | issued (apiKey : JsString) (record : ApiKey)
  | revoked (keyId : JsString)
  | authenticated
  | shown (request : Waiting) (invoice : Invoice)
  | refused (error : RouteError)

/-- The body of a response that shows an invoice. -/
def Response.view : Response → Option View
  | .shown request invoice => some (request.route.view invoice)
  | _ => none

variable (host : Host) (parseDate : JsString → Option ℤ) (secret : JsString)
  (apiKeyAdminToken : Option JsString)

def newKey (now : ℤ) (keyId plaintext : JsString) (terms : KeyTerms) : ApiKey :=
  { keyId
    keyHash := hashApiKey host secret plaintext
    merchantNft := terms.merchantNft
    permissions := terms.permissions
    rateLimits := RateLimitOverrides.limits ⟨none,none,none⟩
    createdAt := host.isoText now
    expiresAt := terms.expiresAt
    lastUsedAt := none
    isActive := true }

def createApiKey (now : ℤ) (authorization : Option JsString) (body : Option Json)
    (keyId : JsString) (random : BitVec 128) (s : Server) :
    Except RouteError (Server × Response) := do
  requireAdminToken apiKeyAdminToken authorization
  let terms ← readKeyRequest host parseDate body
  let plaintext := generateApiKey terms.environment random
  refuseIf (!isValidApiKeyFormat plaintext) .internalError "Internal server error"
  let keys := s.keys.registerApiKey host secret now keyId plaintext terms.merchantNft
    (some terms.permissions) ⟨none,none,none⟩ terms.expiresAt
  return ({s with keys},.issued plaintext (newKey host secret now keyId plaintext terms))

def revokeApiKey (authorization : Option JsString) (keyId : JsString) (s : Server) :
    Except RouteError (Server × Response) := do
  requireAdminToken apiKeyAdminToken authorization
  refuseIf keyId.isEmpty .invalidApiKey "key_id path parameter is required"
  match s.keys.revokeByKeyId keyId with
  | (false,_) => refuse .invalidApiKey "Unknown key_id"
  | (true,keys) => return ({s with keys},.revoked keyId)

def authenticate (now : ℤ) (route : Route) (authorization : Option JsString) (s : Server) :
    Except RouteError (Server × Response) := do
  let apiKey ← extractApiKey authorization
  match s.keys.findAndValidateKey host secret now apiKey with
  | .error message => refuse .invalidApiKey message
  | .ok record =>
    refuseIf (route.permission ∉ record.permissions) (.validation .unauthorizedMerchant)
      ("API key does not have permission: " ++ scope route.permission)
    return (⟨s.keys.touchKey host now record.keyHash,s.waiting ++ [⟨route,apiKey⟩]⟩,.authenticated)

/-- `getInvoiceDetail` and `getInvoiceStatus` behind the lookup of the invoice. -/
def authorize (now : ℤ) (request : Waiting) (invoice : Except ValidationError Invoice)
    (keys : ApiKeyService) : ApiKeyService × Response :=
  match invoice with
  | .error error => (keys,.refused ⟨.validation error.code,js error.message⟩)
  | .ok invoice =>
    match keys.isAuthorizedMerchant host secret now request.apiKey invoice.merchantNft with
    | (true,keys) => (keys,.shown request invoice)
    | (false,keys) =>
      (keys,.refused ⟨.validation .unauthorizedMerchant,
        js "API key not authorized for this invoice"⟩)

/-- A refusal changes nothing, but a check of a key may leave its verdict in the cache. -/
def serve : Journal.Machine Server (ℤ × Event) Response := fun s input =>
  let settled := fun result : Except RouteError (Server × Response) =>
    match result with
    | .ok answered => some answered
    | .error error => some (s,.refused error)
  match input.2 with
  | .createApiKey authorization body keyId random =>
    settled (createApiKey host parseDate secret apiKeyAdminToken input.1 authorization body keyId
      random s)
  | .revokeApiKey authorization keyId =>
    settled (revokeApiKey apiKeyAdminToken authorization keyId s)
  | .authenticate route authorization =>
    settled (authenticate host secret input.1 route authorization s)
  | .fetched position invoice =>
    s.waiting[position]?.map fun request =>
      let (keys,response) := authorize host secret input.1 request invoice s.keys
      (⟨keys,s.waiting.eraseIdx position⟩,response)

end Server

section Effects
variable {host : Host} {parseDate : JsString → Option ℤ} {secret : JsString}
  {apiKeyAdminToken : Option JsString}

/-- What a request does: one case for each response. -/
inductive Effect (host : Host) (parseDate : JsString → Option ℤ) (secret : JsString)
    (apiKeyAdminToken : Option JsString) (now : ℤ) (s : Server) :
    Event → Server → Response → Prop where
  | issued (admin : requireAdminToken apiKeyAdminToken authorization = .ok ())
      (read : readKeyRequest host parseDate body = .ok terms)
      (plaintext : apiKey = generateApiKey terms.environment random) :
      Effect host parseDate secret apiKeyAdminToken now s
        (.createApiKey authorization body keyId random)
        {s with
          keys := s.keys.registerApiKey host secret now keyId apiKey terms.merchantNft
            (some terms.permissions) ⟨none,none,none⟩ terms.expiresAt}
        (.issued apiKey (newKey host secret now keyId apiKey terms))
  | revoked (admin : requireAdminToken apiKeyAdminToken authorization = .ok ())
      (found : s.keys.findByKeyId keyId = some record) :
      Effect host parseDate secret apiKeyAdminToken now s (.revokeApiKey authorization keyId)
        {s with keys := s.keys.deactivateKey record.keyHash} (.revoked keyId)
  | authenticated (credential : extractApiKey authorization = .ok apiKey)
      (found : s.keys.findAndValidateKey host secret now apiKey = .ok record)
      (scope : route.permission ∈ record.permissions) :
      Effect host parseDate secret apiKeyAdminToken now s (.authenticate route authorization)
        ⟨s.keys.touchKey host now record.keyHash,s.waiting ++ [⟨route,apiKey⟩]⟩ .authenticated
  | shown (waits : s.waiting[position]? = some request)
      (authorized : (s.keys.isAuthorizedMerchant host secret now request.apiKey
        invoice.merchantNft).1 = true) :
      Effect host parseDate secret apiKeyAdminToken now s (.fetched position (.ok invoice))
        ⟨(s.keys.isAuthorizedMerchant host secret now request.apiKey invoice.merchantNft).2,
          s.waiting.eraseIdx position⟩
        (.shown request invoice)
  | unchanged : Effect host parseDate secret apiKeyAdminToken now s event s (.refused error)
  | failed : Effect host parseDate secret apiKeyAdminToken now s (.fetched position invoice)
      ⟨s.keys,s.waiting.eraseIdx position⟩ (.refused error)
  | denied : Effect host parseDate secret apiKeyAdminToken now s (.fetched position invoice)
      ⟨(s.keys.isAuthorizedMerchant host secret now apiKey merchantNft).2,
        s.waiting.eraseIdx position⟩
      (.refused error)

theorem createApiKey_effect {s next : Server}
    (answered : createApiKey host parseDate secret apiKeyAdminToken now authorization body keyId
      random s = .ok (next,response)) :
    Effect host parseDate secret apiKeyAdminToken now s
      (.createApiKey authorization body keyId random) next response := by
  obtain ⟨⟨⟩,admin,answered⟩ := except_bind_ok.mp answered
  obtain ⟨terms,read_,answered⟩ := except_bind_ok.mp answered
  obtain ⟨-,answered⟩ := refuseIf_bind_ok.mp answered
  obtain ⟨rfl,rfl⟩ := Prod.mk.inj (Except.ok.inj answered)
  exact .issued admin read_ rfl

theorem revokeApiKey_effect {s next : Server}
    (answered : revokeApiKey apiKeyAdminToken authorization keyId s = .ok (next,response)) :
    Effect host parseDate secret apiKeyAdminToken now s (.revokeApiKey authorization keyId) next
      response := by
  obtain ⟨⟨⟩,admin,answered⟩ := except_bind_ok.mp answered
  obtain ⟨-,answered⟩ := refuseIf_bind_ok.mp answered
  simp only [ApiKeyService.revokeByKeyId] at answered
  cases found : s.keys.findByKeyId keyId with
  | none =>
    rw [found] at answered
    cases answered
  | some record =>
    rw [found] at answered
    obtain ⟨rfl,rfl⟩ := Prod.mk.inj (Except.ok.inj answered)
    exact .revoked admin found

theorem authenticate_effect {s next : Server}
    (answered : authenticate host secret now route authorization s = .ok (next,response)) :
    Effect host parseDate secret apiKeyAdminToken now s (.authenticate route authorization) next
      response := by
  obtain ⟨apiKey,credential,answered⟩ := except_bind_ok.mp answered
  cases found : s.keys.findAndValidateKey host secret now apiKey with
  | error message =>
    rw [found] at answered
    cases answered
  | ok record =>
    rw [found] at answered
    obtain ⟨permitted,answered⟩ := refuseIf_bind_ok.mp answered
    obtain ⟨rfl,rfl⟩ := Prod.mk.inj (Except.ok.inj answered)
    exact .authenticated credential found (by simpa using permitted)

theorem authorize_effect {s : Server} (waits : s.waiting[position]? = some request)
    (answered : authorize host secret now request invoice s.keys = (keys,response)) :
    Effect host parseDate secret apiKeyAdminToken now s (.fetched position invoice)
      ⟨keys,s.waiting.eraseIdx position⟩ response := by
  cases invoice with
  | error error =>
    obtain ⟨rfl,rfl⟩ := Prod.mk.inj answered
    exact .failed
  | ok invoice =>
    simp only [authorize] at answered
    split at answered
    · rename_i after checked
      obtain ⟨rfl,rfl⟩ := Prod.mk.inj answered
      have left : (s.keys.isAuthorizedMerchant host secret now request.apiKey
        invoice.merchantNft).2 = after := congrArg Prod.snd checked
      subst left
      exact .shown waits (congrArg Prod.fst checked)
    · rename_i after checked
      obtain ⟨rfl,rfl⟩ := Prod.mk.inj answered
      have left : (s.keys.isAuthorizedMerchant host secret now request.apiKey
        invoice.merchantNft).2 = after := congrArg Prod.snd checked
      subst left
      exact .denied

/-- The one inversion of the server. -/
theorem serve_effect {s next : Server}
    (served : serve host parseDate secret apiKeyAdminToken s (now,event) =
      some (next,response)) :
    Effect host parseDate secret apiKeyAdminToken now s event next response := by
  cases event with
  | createApiKey authorization body keyId random =>
    simp only [serve] at served
    split at served
    · rename_i answered outcome
      obtain rfl := Option.some.inj served
      exact createApiKey_effect outcome
    · obtain ⟨rfl,rfl⟩ := Prod.mk.inj (Option.some.inj served)
      exact .unchanged
  | revokeApiKey authorization keyId =>
    simp only [serve] at served
    split at served
    · rename_i answered outcome
      obtain rfl := Option.some.inj served
      exact revokeApiKey_effect outcome
    · obtain ⟨rfl,rfl⟩ := Prod.mk.inj (Option.some.inj served)
      exact .unchanged
  | authenticate route authorization =>
    simp only [serve] at served
    split at served
    · rename_i answered outcome
      obtain rfl := Option.some.inj served
      exact authenticate_effect outcome
    · obtain ⟨rfl,rfl⟩ := Prod.mk.inj (Option.some.inj served)
      exact .unchanged
  | fetched position invoice =>
    obtain ⟨request,waits,answered⟩ := Option.map_eq_some_iff.mp served
    obtain ⟨rfl,rfl⟩ := Prod.mk.inj answered
    exact authorize_effect waits rfl

end Effects

section Keys

abbrev Entry := Journal.Entry Server (ℤ × Event) Response

/-- The keys issued so far. -/
def issuedKeys (entries : List Entry) : List ApiKey :=
  entries.filterMap fun entry =>
    match entry.output with
    | .issued _ record => some record
    | _ => none

/-- The keys issued and not revoked since. -/
def liveKeys : List Entry → List ApiKey
  | [] => []
  | entry :: past =>
    match entry.output with
    | .issued _ record => record :: liveKeys past
    | .revoked keyId => (liveKeys past).filter fun record => record.keyId ≠ keyId
    | _ => liveKeys past

/-- A record as it was when it was issued. -/
def asIssued (record : ApiKey) : ApiKey := {record with lastUsedAt := none,isActive := true}

/-- No two draws of identifiers coincide, and no two keys share a digest. -/
structure Drawn (entries : List Entry) : Prop where
  keyIds : ((issuedKeys entries).map fun record => record.keyId).Nodup
  keyHashes : ((issuedKeys entries).map fun record => record.keyHash).Nodup

/-- What holds of a server with its past at an instant. -/
structure Kept (host : Host) (secret : JsString) (past : List Entry) (now : ℤ) (s : Server) :
    Prop where
  sound : s.keys.Sound now
  hashed : s.keys.apiKeyRegistry.get keyHash = some record → record.keyHash = keyHash
  issued : s.keys.apiKeyRegistry.get keyHash = some record → asIssued record ∈ issuedKeys past
  live : s.keys.apiKeyRegistry.get keyHash = some record → record.isActive = true →
    asIssued record ∈ liveKeys past
  waiting : ∀ request ∈ s.waiting, ∃ record ∈ issuedKeys past,
    record.keyHash = hashApiKey host secret request.apiKey ∧
      request.route.permission ∈ record.permissions

variable {host : Host} {parseDate : JsString → Option ℤ} {secret : JsString}
  {apiKeyAdminToken : Option JsString} {past : List Entry} {s next : Server} {now : ℤ}

theorem Kept.later {instant : ℤ} (kept : Kept host secret past now s) (order : now ≤ instant) :
    Kept host secret past instant s := {kept with sound := kept.sound.later order}

/-- A response that is no revocation and no new key leaves both lists alone. -/
theorem Kept.quiet {entry : Entry} (kept : Kept host secret past now s)
    (issuedSame : issuedKeys (entry :: past) = issuedKeys past)
    (liveSame : liveKeys (entry :: past) = liveKeys past)
    (sound : next.keys.Sound now)
    (registry : next.keys.apiKeyRegistry = s.keys.apiKeyRegistry)
    (waiting : next.waiting.Sublist s.waiting) : Kept host secret (entry :: past) now next where
  sound := sound
  hashed stored := kept.hashed (registry ▸ stored)
  issued stored := issuedSame ▸ kept.issued (registry ▸ stored)
  live stored active := liveSame ▸ kept.live (registry ▸ stored) active
  waiting request member := issuedSame ▸ kept.waiting request (waiting.subset member)

theorem isAuthorizedMerchant_registry (keys : ApiKeyService) (apiKey merchantNft : JsString) :
    (keys.isAuthorizedMerchant host secret now apiKey merchantNft).2.apiKeyRegistry =
      keys.apiKeyRegistry := by
  unfold ApiKeyService.isAuthorizedMerchant
  simp only
  split <;> rfl

/-- Two entries of the registry with one identifier are one entry. -/
theorem Kept.unique (kept : Kept host secret past now s) (drawn : Drawn past)
    (stored : s.keys.apiKeyRegistry.get keyHash = some record)
    (other : s.keys.apiKeyRegistry.get otherHash = some another)
    (same : record.keyId = another.keyId) : keyHash = otherHash := by
  have one : asIssued record = asIssued another :=
    List.inj_on_of_nodup_map drawn.keyIds (kept.issued stored) (kept.issued other) same
  calc keyHash = record.keyHash := (kept.hashed stored).symm
    _ = another.keyHash := congrArg (·.keyHash) one
    _ = otherHash := kept.hashed other

theorem found_stored {keys : ApiKeyService} (found : keys.findByKeyId keyId = some record) :
    record.keyId = keyId ∧ ∃ keyHash, keys.apiKeyRegistry.get keyHash = some record := by
  constructor
  · simpa using List.find?_some found
  · obtain ⟨entry,member,rfl⟩ := List.mem_map.mp (List.mem_of_find?_eq_some found)
    exact ⟨entry.1,(JsMap.mem_entries_iff _ _ _).mp member⟩

theorem registerApiKey_registry (keys : ApiKeyService) (keyId apiKey : JsString)
    (terms : KeyTerms) :
    (keys.registerApiKey host secret now keyId apiKey terms.merchantNft
      (some terms.permissions) ⟨none,none,none⟩ terms.expiresAt).apiKeyRegistry =
      keys.apiKeyRegistry.set (hashApiKey host secret apiKey)
        (newKey host secret now keyId apiKey terms) := by
  simp only [ApiKeyService.registerApiKey,ApiKeyService.invalidateCacheForKey,newKey,
    Option.getD_some]

theorem asIssued_newKey {apiKey : JsString} {terms : KeyTerms} :
    asIssued (newKey host secret now keyId apiKey terms) =
      newKey host secret now keyId apiKey terms := rfl

theorem kept_issued (kept : Kept host secret past now s)
    (output : entry.output = .issued apiKey (newKey host secret now keyId apiKey terms)) :
    Kept host secret (entry :: past) now
      {s with
        keys := s.keys.registerApiKey host secret now keyId apiKey terms.merchantNft
          (some terms.permissions) ⟨none,none,none⟩ terms.expiresAt} := by
  have issuedNow : issuedKeys (entry :: past) =
      newKey host secret now keyId apiKey terms :: issuedKeys past := by
    simp [issuedKeys,output]
  have liveNow : liveKeys (entry :: past) =
      newKey host secret now keyId apiKey terms :: liveKeys past := by
    simp [liveKeys,output]
  have registry : ∀ keyHash record, (s.keys.registerApiKey host secret now keyId apiKey
      terms.merchantNft (some terms.permissions) ⟨none,none,none⟩
      terms.expiresAt).apiKeyRegistry.get keyHash = some record →
      record = newKey host secret now keyId apiKey terms ∧
          keyHash = hashApiKey host secret apiKey ∨
        s.keys.apiKeyRegistry.get keyHash = some record := by
    intro keyHash record stored
    rw [registerApiKey_registry,JsMap.get_set] at stored
    split at stored
    · rename_i same
      exact .inl ⟨(Option.some.inj stored).symm,same⟩
    · exact .inr stored
  exact
    { sound := kept.sound.put _ _
      hashed := by
        intro keyHash record stored
        rcases registry keyHash record stored with ⟨isNew,same⟩ | before
        · exact (congrArg (·.keyHash) isNew).trans same.symm
        · exact kept.hashed before
      issued := by
        intro keyHash record stored
        rw [issuedNow]
        rcases registry keyHash record stored with ⟨isNew,-⟩ | before
        · exact List.mem_cons.mpr (.inl ((congrArg asIssued isNew).trans asIssued_newKey))
        · exact List.mem_cons_of_mem _ (kept.issued before)
      live := by
        intro keyHash record stored active
        rw [liveNow]
        rcases registry keyHash record stored with ⟨isNew,-⟩ | before
        · exact List.mem_cons.mpr (.inl ((congrArg asIssued isNew).trans asIssued_newKey))
        · exact List.mem_cons_of_mem _ (kept.live before active)
      waiting := by
        intro request member
        obtain ⟨record,earlier,backs⟩ := kept.waiting request member
        exact ⟨record,issuedNow ▸ List.mem_cons_of_mem _ earlier,backs⟩ }

theorem kept_revoked (kept : Kept host secret past now s) (drawn : Drawn past)
    (found : s.keys.findByKeyId keyId = some record) (output : entry.output = .revoked keyId) :
    Kept host secret (entry :: past) now
      {s with keys := s.keys.deactivateKey record.keyHash} := by
  obtain ⟨named,keyHash,stored⟩ := found_stored found
  obtain rfl := kept.hashed stored
  have issuedBefore := kept.issued stored
  have issuedNow : issuedKeys (entry :: past) = issuedKeys past := by simp [issuedKeys,output]
  have liveNow : liveKeys (entry :: past) =
      (liveKeys past).filter fun record => record.keyId ≠ keyId := by simp [liveKeys,output]
  have registry : ∀ otherHash other,
      (s.keys.deactivateKey record.keyHash).apiKeyRegistry.get otherHash = some other →
      other = {record with isActive := false} ∧ otherHash = record.keyHash ∨
        otherHash ≠ record.keyHash ∧ s.keys.apiKeyRegistry.get otherHash = some other := by
    intro otherHash other held
    simp only [ApiKeyService.deactivateKey,stored,ApiKeyService.invalidateCacheForKey] at held
    rw [JsMap.get_set] at held
    split at held
    · rename_i same
      exact .inl ⟨(Option.some.inj held).symm,same⟩
    · rename_i apart
      exact .inr ⟨apart,held⟩
  refine ⟨kept.sound.deactivate _,?_,?_,?_,?_⟩
  · intro otherHash other held
    rcases registry otherHash other held with ⟨rfl,rfl⟩ | ⟨-,before⟩
    · rfl
    · exact kept.hashed before
  · intro otherHash other held
    rw [issuedNow]
    rcases registry otherHash other held with ⟨rfl,rfl⟩ | ⟨-,before⟩
    · exact issuedBefore
    · exact kept.issued before
  · intro otherHash other held active
    rw [liveNow]
    rcases registry otherHash other held with ⟨rfl,rfl⟩ | ⟨apart,before⟩
    · cases active
    · have different : other.keyId ≠ keyId := by
        intro same
        exact apart (kept.unique drawn before stored (same.trans named.symm))
      exact List.mem_filter.mpr ⟨kept.live before active,decide_eq_true different⟩
  · exact fun request member => issuedNow ▸ kept.waiting request member

/-- The record that answers a key is the one stored under its digest. -/
theorem validated_stored {keys : ApiKeyService}
    (found : keys.findAndValidateKey host secret now apiKey = .ok record) :
    keys.apiKeyRegistry.get (hashApiKey host secret apiKey) = some record := by
  simp only [ApiKeyService.findAndValidateKey] at found
  split at found
  · cases found
  · rename_i stored registered
    split at found
    · cases found
    · split at found
      · cases found
      · rw [registered,Except.ok.inj found]

theorem kept_authenticated (kept : Kept host secret past now s)
    (found : s.keys.findAndValidateKey host secret now apiKey = .ok record)
    (permitted : route.permission ∈ record.permissions)
    (output : entry.output = .authenticated) :
    Kept host secret (entry :: past) now
      ⟨s.keys.touchKey host now record.keyHash,s.waiting ++ [⟨route,apiKey⟩]⟩ := by
  have stored := validated_stored found
  have named := kept.hashed stored
  have issuedNow : issuedKeys (entry :: past) = issuedKeys past := by simp [issuedKeys,output]
  have liveNow : liveKeys (entry :: past) = liveKeys past := by simp [liveKeys,output]
  -- the record in use gets a new date and stays otherwise as it was
  have registry : ∀ otherHash other,
      (s.keys.touchKey host now record.keyHash).apiKeyRegistry.get otherHash = some other →
      ∃ before, s.keys.apiKeyRegistry.get otherHash = some before ∧
        other.keyHash = before.keyHash ∧ asIssued other = asIssued before ∧
          other.isActive = before.isActive := by
    intro otherHash other held
    rw [named] at held
    simp only [ApiKeyService.touchKey,stored] at held
    rw [JsMap.get_set] at held
    split at held
    · rename_i same
      obtain rfl := Option.some.inj held
      exact ⟨record,same ▸ stored,rfl,rfl,rfl⟩
    · exact ⟨other,held,rfl,rfl,rfl⟩
  exact
    { sound := kept.sound.touch now record.keyHash
      hashed := by
        intro otherHash other held
        obtain ⟨before,earlier,same,-,-⟩ := registry otherHash other held
        exact same.trans (kept.hashed earlier)
      issued := by
        intro otherHash other held
        obtain ⟨before,earlier,-,same,-⟩ := registry otherHash other held
        rw [issuedNow,same]
        exact kept.issued earlier
      live := by
        intro otherHash other held active
        obtain ⟨before,earlier,-,same,alike⟩ := registry otherHash other held
        rw [liveNow,same]
        exact kept.live earlier (alike.symm.trans active)
      waiting := by
        intro request member
        rw [issuedNow]
        rcases List.mem_append.mp member with before | latest
        · exact kept.waiting request before
        · obtain rfl := List.mem_singleton.mp latest
          exact ⟨asIssued record,kept.issued stored,named,permitted⟩ }

/-- What one request keeps. -/
theorem kept_step {output : Response} (kept : Kept host secret past now s) (drawn : Drawn past)
    (served : serve host parseDate secret apiKeyAdminToken s (now,event) = some (next,output)) :
    Kept host secret (⟨s,(now,event),next,output⟩ :: past) now next := by
  cases serve_effect served with
  | issued admin read_ plaintext => exact kept_issued kept rfl
  | revoked admin found => exact kept_revoked kept drawn found rfl
  | authenticated credential found scope => exact kept_authenticated kept found scope rfl
  | shown waits authorized =>
    exact kept.quiet rfl rfl (kept.sound.check _ _) (isAuthorizedMerchant_registry _ _ _)
      (List.eraseIdx_sublist _ _)
  | unchanged => exact kept.quiet rfl rfl kept.sound rfl (List.Sublist.refl _)
  | failed => exact kept.quiet rfl rfl kept.sound rfl (List.eraseIdx_sublist _ _)
  | denied =>
    exact kept.quiet rfl rfl (kept.sound.check _ _) (isAuthorizedMerchant_registry _ _ _)
      (List.eraseIdx_sublist _ _)

theorem issuedKeys_suffix {newer older : List Entry} (earlier : older <:+ newer) :
    issuedKeys older <:+ issuedKeys newer := by
  obtain ⟨front,rfl⟩ := earlier
  exact ⟨issuedKeys front,(List.filterMap_append ..).symm⟩

theorem Drawn.earlier {newer older : List Entry} (drawn : Drawn newer)
    (earlier : older <:+ newer) : Drawn older where
  keyIds := drawn.keyIds.sublist ((issuedKeys_suffix earlier).sublist.map _)
  keyHashes := drawn.keyHashes.sublist ((issuedKeys_suffix earlier).sublist.map _)

end Keys

section Runs
variable {host : Host} {parseDate : JsString → Option ℤ} {secret : JsString}
  {apiKeyAdminToken : Option JsString} {inputs : List (ℤ × Event)}

def initial : Server := ⟨ApiKeyService.initial,[]⟩

/-- Requests at instants that never run backwards, newest first. -/
def Ordered (inputs : List (ℤ × Event)) : Prop :=
  inputs.Pairwise fun later earlier => earlier.1 ≤ later.1

variable (host) (parseDate) (secret) (apiKeyAdminToken)

abbrev journal (inputs : List (ℤ × Event)) : List Entry :=
  Journal.journal (serve host parseDate secret apiKeyAdminToken) initial inputs

abbrev run (inputs : List (ℤ × Event)) : Server :=
  Journal.run (serve host parseDate secret apiKeyAdminToken) initial inputs

variable {host} {parseDate} {secret} {apiKeyAdminToken}

theorem run_kept (ordered : Ordered inputs)
    (drawn : Drawn (journal host parseDate secret apiKeyAdminToken inputs)) (now : ℤ)
    (latest : ∀ input ∈ inputs, input.1 ≤ now) :
    Kept host secret (journal host parseDate secret apiKeyAdminToken inputs) now
      (run host parseDate secret apiKeyAdminToken inputs) := by
  induction inputs generalizing now with
  | nil =>
    exact
      { sound := by intro _ _ _ _ cached; cases cached
        hashed := by intro _ _ stored; cases stored
        issued := by intro _ _ stored; cases stored
        live := by intro _ _ stored; cases stored
        waiting := by intro _ member; cases member }
  | cons input past ih =>
    obtain ⟨newest,ordered⟩ := List.pairwise_cons.mp ordered
    have within : journal host parseDate secret apiKeyAdminToken past <:+
        journal host parseDate secret apiKeyAdminToken (input :: past) :=
      Journal.journal_suffix (List.suffix_cons input past)
    have kept := ih ordered (drawn.earlier within) input.1 newest
    have order := latest input List.mem_cons_self
    cases outcome : serve host parseDate secret apiKeyAdminToken
        (run host parseDate secret apiKeyAdminToken past) input with
    | none =>
      rw [journal,run,Journal.journal_refused outcome,Journal.run_refused outcome]
      exact kept.later order
    | some result =>
      obtain ⟨next,output⟩ := result
      rw [journal,run,Journal.journal_accepted outcome,Journal.run_accepted outcome]
      exact (kept_step kept (drawn.earlier within) outcome).later order

/-- The key was issued to someone with the administrator's token. -/
def Authorised (apiKeyAdminToken : Option JsString) (entries : List Entry) (record : ApiKey) :
    Prop :=
  ∃ entry ∈ entries, ∃ authorization body keyId random apiKey,
    entry.input.2 = .createApiKey authorization body keyId random ∧
      requireAdminToken apiKeyAdminToken authorization = .ok () ∧
      entry.output = .issued apiKey record

theorem liveKeys_issued {entries : List Entry} (live : record ∈ liveKeys entries) :
    ∃ entry ∈ entries, ∃ apiKey, entry.output = .issued apiKey record := by
  induction entries with
  | nil => cases live
  | cons entry past ih =>
    have earlier : record ∈ liveKeys past → ∃ issuing ∈ entry :: past, ∃ apiKey,
        issuing.output = .issued apiKey record := by
      intro before
      obtain ⟨issuing,member,shown⟩ := ih before
      exact ⟨issuing,List.mem_cons_of_mem _ member,shown⟩
    simp only [liveKeys] at live
    split at live
    · rename_i apiKey issued output
      rcases List.mem_cons.mp live with rfl | before
      · exact ⟨entry,List.mem_cons_self,apiKey,output⟩
      · exact earlier before
    · exact earlier (List.mem_filter.mp live).1
    · exact earlier live

theorem live_authorised
    (live : record ∈ liveKeys (journal host parseDate secret apiKeyAdminToken inputs)) :
    Authorised apiKeyAdminToken (journal host parseDate secret apiKeyAdminToken inputs) record := by
  obtain ⟨entry,member,apiKey,output⟩ := liveKeys_issued live
  have served := Journal.entry_accepted _ _ member
  rw [output] at served
  generalize given : entry.input = input at served
  generalize entry.after = next at served
  obtain ⟨now,event⟩ := input
  cases serve_effect served with
  | issued admin _ _ => exact ⟨entry,member,_,_,_,_,_,congrArg Prod.snd given,admin,output⟩

theorem liveKeys_subset {entries : List Entry} : liveKeys entries ⊆ issuedKeys entries := by
  intro record live
  obtain ⟨entry,member,apiKey,output⟩ := liveKeys_issued live
  exact List.mem_filterMap.mpr ⟨entry,member,by rw [output]⟩

/-- No answer from the cache is older than a minute. -/
theorem checkedAt_recent {keys : ApiKeyService} {now : ℤ} (keyHash merchantNft : JsString) :
    now ≤ keys.checkedAt now keyHash merchantNft + authCacheTtlMs := by
  unfold ApiKeyService.checkedAt
  split
  · rename_i cached found
    have fresh := (Option.filter_eq_some_iff.mp found).2
    rw [sub_add_cancel]
    exact (of_decide_eq_true fresh).le
  · simp [authCacheTtlMs]

/-- The protected routes show an invoice for a key of its merchant that an administrator had issued
with the permission, and that was neither revoked when the invoice arrived nor expired a minute
before, whatever happened between the authentication of the request and the arrival. -/
theorem view_of_live_key (ordered : Ordered inputs)
    (drawn : Drawn (journal host parseDate secret apiKeyAdminToken inputs))
    (here : entry :: older <:+ journal host parseDate secret apiKeyAdminToken inputs)
    (seen : entry.output.view = some view) :
    ∃ request ∈ entry.before.waiting, ∃ invoice, view = request.route.view invoice ∧
      ∃ record ∈ liveKeys older, record.keyHash = hashApiKey host secret request.apiKey ∧
        record.merchantNft = invoice.merchantNft ∧
        request.route.permission ∈ record.permissions ∧
        (∃ instant ≤ entry.input.1, entry.input.1 ≤ instant + authCacheTtlMs ∧
          record.unexpired instant = true) ∧
        Authorised apiKeyAdminToken older record := by
  obtain ⟨past,within,rfl,before,served⟩ := Journal.suffix_origin here
  obtain ⟨latest,ordered⟩ := List.pairwise_cons.mp (ordered.sublist within.sublist)
  have earlier := drawn.earlier ((List.suffix_cons _ _).trans here)
  have kept := run_kept ordered earlier entry.input.1 latest
  rw [run,← before] at kept
  generalize given : entry.input = input at served kept
  obtain ⟨now,event⟩ := input
  generalize entry.output = output at served seen
  generalize entry.after = next at served
  cases serve_effect served with
  | @shown position request invoice waits authorized =>
    obtain rfl := Option.some.inj seen
    have waiting := List.mem_of_getElem? waits
    rw [ApiKeyService.isAuthorizedMerchant_verdict kept.sound] at authorized
    obtain ⟨record,⟨stored,active,merchant⟩,unexpired⟩ :=
      ApiKeyService.authorizedNow_iff.mp authorized
    have live := kept.live stored active
    have named : record.keyHash = hashApiKey host secret request.apiKey := kept.hashed stored
    -- the record that authenticated the request is the one that authorizes it
    obtain ⟨original,issued,digest,permitted⟩ := kept.waiting request waiting
    have same : original = asIssued record :=
      List.inj_on_of_nodup_map earlier.keyHashes issued (liveKeys_subset live)
        (digest.trans named.symm)
    rw [same] at permitted
    have plain := ApiKeyService.hashApiKey_colon host secret request.apiKey
    exact ⟨request,waiting,invoice,rfl,asIssued record,live,named,merchant,permitted,
      ⟨_,ApiKeyService.checkedAt_le kept.sound plain _,checkedAt_recent _ _,unexpired⟩,
      live_authorised live⟩
  | _ => cases seen

end Runs

section Card
open ApiKeyService

def cardToken : JsString := js "Bearer admin-token"

def cardInvoice : Invoice :=
  { invoiceId := js "inv_0123456789abcdef"
    merchantNft := cardMerchant
    amountTbc := js "100"
    currency := js "TBC"
    metadata := none
    status := .pending
    createdAt := ⟨js "2026-01-01T00:00:00.000Z",1767225600000⟩
    expiresAt := ⟨js "2026-01-02T00:00:00.000Z",1767312000000⟩
    paymentUrl := js "https://pay.tonbankcard.com/inv_0123456789abcdef"
    settlement := none }

/-- A key is issued, authenticates a request, and the invoice arrives. -/
def cardRequests : List (ℤ × Event) :=
  [(1767225602000,.fetched 0 (.ok cardInvoice)),
   (1767225601000,.authenticate .detail (some (js "Bearer " ++ cardKey))),
   (1767225600000,.createApiKey (some cardToken)
      (some (.object [(js "merchant_nft",.string cardMerchant)]))
      (js "key_0123456789abcdef0123456789abcdef") 0x0123456789abcdef0123456789abcdef#128)]

abbrev cardJournal : List Entry :=
  journal cardHost (fun _ => none) cardSecret (some (js "admin-token")) cardRequests

theorem view_of_live_key_card :
    ∃ record ∈ liveKeys cardJournal.tail, record.merchantNft = cardMerchant ∧
      Authorised (some (js "admin-token")) cardJournal.tail record := by
  have ordered : Ordered cardRequests := by simp [Ordered,cardRequests]
  have drawn : Drawn cardJournal := by
    constructor <;> decide +kernel
  have first : cardJournal.head?.bind (·.output.view) = some (.detail cardInvoice) := by
    decide +kernel
  obtain ⟨entry,head,seen⟩ := Option.bind_eq_some_iff.mp first
  obtain ⟨older,whole⟩ := List.head?_eq_some_iff.mp head
  have here : entry :: older <:+ cardJournal := whole ▸ List.suffix_refl _
  obtain ⟨request,-,invoice,shown,record,live,-,merchant,-,-,authorised⟩ :=
    view_of_live_key ordered drawn here seen
  have same : invoice.merchantNft = cardMerchant := by
    cases route : request.route with
    | detail =>
      rw [route] at shown
      exact (congrArg (·.merchantNft) (View.detail.inj shown)).symm
    | status =>
      rw [route] at shown
      cases shown
  rw [whole]
  exact ⟨record,live,merchant.trans same,authorised⟩

end Card
end Tonbankcard.MerchantApi.Routes
