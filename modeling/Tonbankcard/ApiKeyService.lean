import Tonbankcard.MerchantApiHashes

/-! The API keys of the merchant API: the registry by key hash, the check of a key against its
record, and the authorization of a merchant, whose results are cached for a minute. -/
namespace Tonbankcard.MerchantApi

open EcmaScript

section Registry

inductive ApiKeyPermission where
  | invoiceCreate
  | invoiceRead
  | invoiceStatus
  deriving DecidableEq

structure RateLimits where
  invoiceCreateRpm : Nat
  invoiceReadRpm : Nat
  invoiceStatusRpm : Nat
  deriving DecidableEq

/-- Rate limits of which some may be given. -/
structure RateLimitOverrides where
  invoiceCreateRpm : Option Nat
  invoiceReadRpm : Option Nat
  invoiceStatusRpm : Option Nat

def defaultPermissions : List ApiKeyPermission := [.invoiceCreate,.invoiceRead,.invoiceStatus]

def RateLimitOverrides.limits (overrides : RateLimitOverrides) : RateLimits where
  invoiceCreateRpm := overrides.invoiceCreateRpm.getD 100
  invoiceReadRpm := overrides.invoiceReadRpm.getD 1000
  invoiceStatusRpm := overrides.invoiceStatusRpm.getD 500

/-- A text with the time that it parses to as a date, if it does. -/
structure ExpiryText where
  text : JsString
  time : Option ℤ
  deriving DecidableEq

structure ApiKey where
  keyId : JsString
  keyHash : JsString
  merchantNft : JsString
  permissions : List ApiKeyPermission
  rateLimits : RateLimits
  createdAt : JsString
  expiresAt : Option ExpiryText
  lastUsedAt : Option JsString
  isActive : Bool
  deriving DecidableEq

structure AuthCacheEntry where
  authorized : Bool
  expiresAt : ℤ
  deriving DecidableEq

def authCacheTtlMs : ℤ := 60 * 1000

structure ApiKeyService where
  apiKeyRegistry : JsMap JsString ApiKey
  authCache : JsMap JsString AuthCacheEntry

def ApiKeyService.initial : ApiKeyService := ⟨JsMap.empty,JsMap.empty⟩

/-- The digest of a plaintext key under the secret of the server. -/
def hashApiKey (host : Host) (secret apiKeyValue : JsString) : JsString :=
  hexDigest (host.hmacSha256 secret apiKeyValue)

/-- The cache key of a merchant under a key hash. -/
def authCacheKey (keyHash merchantNft : JsString) : JsString := keyHash ++ 58 :: merchantNft

/-- An expiry that is given; an empty text counts as none. -/
def ApiKey.expiry (key : ApiKey) : Option ExpiryText := key.expiresAt.filter (!·.text.isEmpty)

/-- The comparison with a date that is invalid is false both ways. -/
def ApiKey.expired (key : ApiKey) (now : ℤ) : Bool := key.expiry.any (·.time.any (· < now))

def ApiKey.unexpired (key : ApiKey) (now : ℤ) : Bool := key.expiry.all (·.time.any (now ≤ ·))

end Registry

namespace ApiKeyService
variable (host : Host) (secret : JsString) (s : ApiKeyService)

section Operations

def invalidateCacheForKey (keyHash : JsString) : ApiKeyService :=
  {s with authCache := s.authCache.keepKeys fun cacheKey => !(keyHash ++ [58]).isPrefixOf cacheKey}

/-- A registration with the key identifier that was drawn for it. -/
def registerApiKey (now : ℤ) (keyId plaintextKey merchantNft : JsString)
    (permissions : Option (List ApiKeyPermission)) (rateLimits : RateLimitOverrides)
    (expiresAt : Option ExpiryText) : ApiKeyService :=
  let keyHash := hashApiKey host secret plaintextKey
  let apiKey : ApiKey :=
    { keyId := keyId
      keyHash := keyHash
      merchantNft := merchantNft
      permissions := permissions.getD defaultPermissions
      rateLimits := rateLimits.limits
      createdAt := host.isoText now
      expiresAt := expiresAt
      lastUsedAt := none
      isActive := true }
  invalidateCacheForKey ⟨s.apiKeyRegistry.set keyHash apiKey,s.authCache⟩ keyHash

/-- The refusals of `INVALID_API_KEY` by their messages. -/
def findAndValidateKey (now : ℤ) (plaintextKey : JsString) : Except String ApiKey :=
  match s.apiKeyRegistry.get (hashApiKey host secret plaintextKey) with
  | none => .error "Invalid API key"
  | some apiKey =>
    if !apiKey.isActive then .error "API key is deactivated"
    else if apiKey.expired now then .error "API key has expired"
    else .ok apiKey

/-- What a check finds in the registry. -/
def authorizedNow (now : ℤ) (keyHash merchantNft : JsString) : Bool :=
  (s.apiKeyRegistry.get keyHash).any fun apiKey =>
    apiKey.isActive && apiKey.merchantNft = merchantNft && apiKey.unexpired now

def isAuthorizedMerchant (now : ℤ) (plaintextKey merchantNft : JsString) :
    Bool × ApiKeyService :=
  let keyHash := hashApiKey host secret plaintextKey
  let cacheKey := authCacheKey keyHash merchantNft
  match (s.authCache.get cacheKey).filter (now < ·.expiresAt) with
  | some cached => (cached.authorized,s)
  | none =>
    let authorized := s.authorizedNow now keyHash merchantNft
    (authorized,{s with authCache := s.authCache.set cacheKey ⟨authorized,now + authCacheTtlMs⟩})

def touchKey (now : ℤ) (keyHash : JsString) : ApiKeyService :=
  match s.apiKeyRegistry.get keyHash with
  | none => s
  | some apiKey =>
    ⟨s.apiKeyRegistry.set keyHash {apiKey with lastUsedAt := some (host.isoText now)},s.authCache⟩

def deactivateKey (keyHash : JsString) : ApiKeyService :=
  match s.apiKeyRegistry.get keyHash with
  | none => s
  | some apiKey =>
    invalidateCacheForKey
      ⟨s.apiKeyRegistry.set keyHash {apiKey with isActive := false},s.authCache⟩ keyHash

def findByKeyId (keyId : JsString) : Option ApiKey :=
  (s.apiKeyRegistry.entries.map (·.2)).find? (·.keyId = keyId)

def revokeByKeyId (keyId : JsString) : Bool × ApiKeyService :=
  match s.findByKeyId keyId with
  | none => (false,s)
  | some apiKey => (true,s.deactivateKey apiKey.keyHash)

end Operations

section Calls

inductive Call where
  | registerApiKey (keyId plaintextKey merchantNft : JsString)
      (permissions : Option (List ApiKeyPermission)) (rateLimits : RateLimitOverrides)
      (expiresAt : Option ExpiryText)
  | touchKey (keyHash : JsString)
  | deactivateKey (keyHash : JsString)
  | revokeByKeyId (keyId : JsString)
  | clearAll
  | isAuthorizedMerchant (plaintextKey merchantNft : JsString)

/-- What a call at an instant leaves behind. -/
def after (now : ℤ) : Call → ApiKeyService
  | .registerApiKey keyId plaintextKey merchantNft permissions rateLimits expiresAt =>
    s.registerApiKey host secret now keyId plaintextKey merchantNft permissions rateLimits expiresAt
  | .touchKey keyHash => s.touchKey host now keyHash
  | .deactivateKey keyHash => s.deactivateKey keyHash
  | .revokeByKeyId keyId => (s.revokeByKeyId keyId).2
  | .clearAll => .initial
  | .isAuthorizedMerchant plaintextKey merchantNft =>
    (s.isAuthorizedMerchant host secret now plaintextKey merchantNft).2

/-- The service after some calls, which are listed with their instants, newest first. -/
def run : List (ℤ × Call) → ApiKeyService
  | [] => .initial
  | (now,call) :: past => (run past).after host secret now call

end Calls

end ApiKeyService

end Tonbankcard.MerchantApi
