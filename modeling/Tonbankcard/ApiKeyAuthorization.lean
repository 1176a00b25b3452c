import Mathlib.Data.List.Basic
import Tonbankcard.ApiKeyService

/-! The cached authorization of a merchant against the registry of keys. Every cached verdict is
that of the present registry at the instant of its check; only the time since then can part the
two. -/
namespace Tonbankcard.MerchantApi.ApiKeyService

open EcmaScript

section Keys

theorem digit_ne_colon {value : Nat} (small : value < 16) : digit value ≠ 58 := by
  decide +revert

theorem fixedDigits_colon {base : Nat} (positive : 0 < base) (upTo : base ≤ 16)
    (width value : Nat) : 58 ∉ fixedDigits base width value := by
  induction width generalizing value with
  | zero => simp [fixedDigits]
  | succ width ih =>
    have small : value % base < 16 := Nat.lt_of_lt_of_le (Nat.mod_lt _ positive) upTo
    simp [fixedDigits,ih,(digit_ne_colon small).symm]

theorem hashApiKey_colon (host : Host) (secret apiKeyValue : JsString) :
    58 ∉ hashApiKey host secret apiKeyValue := fixedDigits_colon (by decide) (by decide) _ _

/-- The cache keys of different key hashes never meet. -/
theorem authCacheKey_injective {keyHash other merchantNft otherNft : JsString}
    (plain : 58 ∉ keyHash) (otherPlain : 58 ∉ other)
    (same : authCacheKey keyHash merchantNft = authCacheKey other otherNft) :
    keyHash = other ∧ merchantNft = otherNft := by
  induction keyHash generalizing other with
  | nil =>
    cases other with
    | nil => exact ⟨rfl,by simpa [authCacheKey] using same⟩
    | cons unit rest =>
      simp only [authCacheKey,List.nil_append,List.cons_append,List.cons.injEq] at same
      simp [← same.1] at otherPlain
  | cons unit rest ih =>
    cases other with
    | nil =>
      simp only [authCacheKey,List.nil_append,List.cons_append,List.cons.injEq] at same
      simp [same.1] at plain
    | cons otherUnit otherRest =>
      simp only [authCacheKey,List.cons_append,List.cons.injEq] at same
      simp only [List.mem_cons,not_or] at plain otherPlain
      obtain ⟨front,back⟩ := ih plain.2 otherPlain.2 same.2
      exact ⟨by rw [same.1,front],back⟩

theorem isPrefixOf_authCacheKey (keyHash merchantNft : JsString) :
    (keyHash ++ [58]).isPrefixOf (authCacheKey keyHash merchantNft) = true := by
  simp [authCacheKey]

end Keys

variable (host : Host) (secret : JsString) (s : ApiKeyService)

/-- An authorization says whether the key validates, with a record of that merchant. -/
def Transparent (now : ℤ) (plaintextKey merchantNft : JsString) : Prop :=
  (s.isAuthorizedMerchant host secret now plaintextKey merchantNft).1 = true ↔
    ∃ apiKey, s.findAndValidateKey host secret now plaintextKey = .ok apiKey ∧
      apiKey.merchantNft = merchantNft

/-- The instant of the check that answers now: that of a fresh cache entry, if there is one. -/
def checkedAt (now : ℤ) (keyHash merchantNft : JsString) : ℤ :=
  match (s.authCache.get (authCacheKey keyHash merchantNft)).filter (now < ·.expiresAt) with
  | some cached => cached.expiresAt - authCacheTtlMs
  | none => now

/-- The registry holds the key as active and bound to the merchant. -/
def Bound (keyHash merchantNft : JsString) (apiKey : ApiKey) : Prop :=
  s.apiKeyRegistry.get keyHash = some apiKey ∧ apiKey.isActive = true ∧
    apiKey.merchantNft = merchantNft

/-- The key has run out since the check that answers now. -/
def Lapsed (now : ℤ) (plaintextKey merchantNft : JsString) : Prop :=
  ∃ apiKey, s.Bound (hashApiKey host secret plaintextKey) merchantNft apiKey ∧
    ∃ expiry, apiKey.expiry = some expiry ∧ ∃ time, expiry.time = some time ∧ time < now ∧
      s.checkedAt now (hashApiKey host secret plaintextKey) merchantNft ≤ time

/-- The key has an expiry that is no date. -/
def Undated (plaintextKey merchantNft : JsString) : Prop :=
  ∃ apiKey, s.Bound (hashApiKey host secret plaintextKey) merchantNft apiKey ∧
    ∃ expiry, apiKey.expiry = some expiry ∧ expiry.time = none

/-- The cache at an instant: each entry is from the last minute, and the present registry gives
the same verdict at the instant of its check. -/
def Sound (now : ℤ) : Prop :=
  ∀ keyHash merchantNft entry, 58 ∉ keyHash →
    s.authCache.get (authCacheKey keyHash merchantNft) = some entry →
    entry.expiresAt ≤ now + authCacheTtlMs ∧
      entry.authorized = s.authorizedNow (entry.expiresAt - authCacheTtlMs) keyHash merchantNft

section Steps
variable {host secret s}

theorem Sound.later {now later : ℤ} (sound : s.Sound now) (order : now ≤ later) :
    s.Sound later := by
  intro keyHash merchantNft entry plain cached
  obtain ⟨young,same⟩ := sound keyHash merchantNft entry plain cached
  exact ⟨by omega,same⟩

/-- A record that is put together with the deletion of its entries leaves the others as they
were. -/
theorem Sound.put {now : ℤ} (sound : s.Sound now) (keyHash : JsString) (apiKey : ApiKey) :
    (invalidateCacheForKey ⟨s.apiKeyRegistry.set keyHash apiKey,s.authCache⟩ keyHash).Sound
      now := by
  intro other merchantNft entry plain cached
  obtain ⟨cached,kept⟩ := (JsMap.get_keepKeys _ _ _ _).mp cached
  have different : other ≠ keyHash := by
    rintro rfl
    simp [isPrefixOf_authCacheKey] at kept
  obtain ⟨young,same⟩ := sound other merchantNft entry plain cached
  refine ⟨young,same.trans ?_⟩
  simp [authorizedNow,invalidateCacheForKey,JsMap.get_set,different]

theorem Sound.touch {now : ℤ} (sound : s.Sound now) (instant : ℤ) (keyHash : JsString) :
    (s.touchKey host instant keyHash).Sound now := by
  unfold touchKey
  cases found : s.apiKeyRegistry.get keyHash with
  | none => exact sound
  | some apiKey =>
    intro other merchantNft entry plain cached
    obtain ⟨young,same⟩ := sound other merchantNft entry plain cached
    refine ⟨young,same.trans ?_⟩
    by_cases this : other = keyHash
    · subst this
      simp [authorizedNow,JsMap.get_set,found,ApiKey.unexpired,ApiKey.expiry]
    · simp [authorizedNow,JsMap.get_set,this]

theorem Sound.deactivate {now : ℤ} (sound : s.Sound now) (keyHash : JsString) :
    (s.deactivateKey keyHash).Sound now := by
  unfold deactivateKey
  split
  · exact sound
  · exact sound.put keyHash _

theorem Sound.check {now : ℤ} (sound : s.Sound now) (plaintextKey merchantNft : JsString) :
    (s.isAuthorizedMerchant host secret now plaintextKey merchantNft).2.Sound now := by
  unfold isAuthorizedMerchant
  simp only
  split
  · exact sound
  · intro other otherNft entry plain cached
    rw [JsMap.get_set] at cached
    split at cached
    · rename_i same
      obtain ⟨hashed,bound⟩ :=
        authCacheKey_injective plain (hashApiKey_colon host secret plaintextKey) same
      rw [hashed,bound,← Option.some.inj cached]
      exact ⟨le_rfl,by simp [authorizedNow]⟩
    · exact sound other otherNft entry plain cached

theorem Sound.after {now : ℤ} (sound : s.Sound now) (call : Call) :
    (s.after host secret now call).Sound now := by
  cases call with
  | registerApiKey keyId plaintextKey =>
    simp only [ApiKeyService.after,registerApiKey]
    exact sound.put (hashApiKey host secret plaintextKey) _
  | touchKey keyHash => exact sound.touch now keyHash
  | deactivateKey keyHash => exact sound.deactivate keyHash
  | revokeByKeyId keyId =>
    simp only [ApiKeyService.after,revokeByKeyId]
    split
    · exact sound
    · exact sound.deactivate _
  | clearAll => intro _ _ _ _ cached; simp [ApiKeyService.after,initial] at cached
  | isAuthorizedMerchant plaintextKey merchantNft => exact sound.check plaintextKey merchantNft

end Steps

section Runs
variable {host secret}

/-- Calls at instants that never run backwards, newest first. -/
def Ordered (calls : List (ℤ × Call)) : Prop :=
  calls.Pairwise fun later earlier => earlier.1 ≤ later.1

theorem run_sound {calls : List (ℤ × Call)} (ordered : Ordered calls) (now : ℤ)
    (past : ∀ call ∈ calls, call.1 ≤ now) : (run host secret calls).Sound now := by
  induction calls generalizing now with
  | nil => intro _ _ _ _ cached; simp [run,initial] at cached
  | cons call calls ih =>
    obtain ⟨latest,ordered⟩ := List.pairwise_cons.mp ordered
    exact ((ih ordered call.1 latest).after call.2).later (past call List.mem_cons_self)

end Runs

section Checks
variable {host secret s}

/-- A check gives the verdict of the registry at the instant of the check that answers. -/
theorem isAuthorizedMerchant_verdict {now : ℤ} (sound : s.Sound now)
    (plaintextKey merchantNft : JsString) :
    (s.isAuthorizedMerchant host secret now plaintextKey merchantNft).1 =
      s.authorizedNow
        (s.checkedAt now (hashApiKey host secret plaintextKey) merchantNft)
        (hashApiKey host secret plaintextKey) merchantNft := by
  unfold isAuthorizedMerchant checkedAt
  cases found : (s.authCache.get (authCacheKey (hashApiKey host secret plaintextKey)
      merchantNft)).filter (now < ·.expiresAt) with
  | none => simp only [found]
  | some cached =>
    simp only [found]
    obtain ⟨stored,_⟩ := Option.filter_eq_some_iff.mp found
    exact (sound _ merchantNft cached (hashApiKey_colon host secret plaintextKey) stored).2

theorem checkedAt_le {now : ℤ} (sound : s.Sound now) {keyHash : JsString}
    (plain : 58 ∉ keyHash) (merchantNft : JsString) :
    s.checkedAt now keyHash merchantNft ≤ now := by
  unfold checkedAt
  split
  · rename_i cached found
    obtain ⟨stored,_⟩ := Option.filter_eq_some_iff.mp found
    have young := (sound keyHash merchantNft cached plain stored).1
    omega
  · exact le_rfl

theorem authorizedNow_iff {instant : ℤ} {keyHash merchantNft : JsString} :
    s.authorizedNow instant keyHash merchantNft = true ↔
      ∃ apiKey, s.Bound keyHash merchantNft apiKey ∧ apiKey.unexpired instant = true := by
  cases found : s.apiKeyRegistry.get keyHash <;> simp [authorizedNow,Bound,found,and_assoc]

theorem findAndValidateKey_iff {now : ℤ} {plaintextKey merchantNft : JsString} :
    (∃ apiKey, s.findAndValidateKey host secret now plaintextKey = .ok apiKey ∧
      apiKey.merchantNft = merchantNft) ↔
      ∃ apiKey, s.Bound (hashApiKey host secret plaintextKey) merchantNft apiKey ∧
        apiKey.expired now = false := by
  unfold findAndValidateKey Bound
  cases s.apiKeyRegistry.get (hashApiKey host secret plaintextKey) with
  | none => simp
  | some apiKey =>
    cases active : apiKey.isActive <;> cases expired : apiKey.expired now <;>
      simp [active,expired]

/-- Two verdicts of different instants on one record: they part where the expiry lies between
the instants, and where it is no date. -/
theorem unexpired_iff_expired (apiKey : ApiKey) {checked now : ℤ} (order : checked ≤ now) :
    (apiKey.unexpired checked = true ↔ apiKey.expired now = false) ↔
      ¬(∃ expiry, apiKey.expiry = some expiry ∧ ∃ time, expiry.time = some time ∧ time < now ∧
        checked ≤ time) ∧
      ¬(∃ expiry, apiKey.expiry = some expiry ∧ expiry.time = none) := by
  unfold ApiKey.unexpired ApiKey.expired
  cases apiKey.expiry with
  | none => simp
  | some expiry =>
    cases dated : expiry.time with
    | none => simp [dated]
    | some time =>
      simp only [Option.all_some,Option.any_some,dated,decide_eq_true_eq,
        decide_eq_false_iff_not,Option.some.injEq,exists_eq_left',reduceCtorEq,not_false_eq_true,
        and_true]
      omega

theorem transparent_iff {now : ℤ} (sound : s.Sound now) (plaintextKey merchantNft : JsString) :
    s.Transparent host secret now plaintextKey merchantNft ↔
      ¬s.Lapsed host secret now plaintextKey merchantNft ∧
      ¬s.Undated host secret plaintextKey merchantNft := by
  have order := checkedAt_le sound (hashApiKey_colon host secret plaintextKey) merchantNft
  rw [Transparent,isAuthorizedMerchant_verdict sound,authorizedNow_iff,findAndValidateKey_iff]
  unfold Lapsed Undated
  by_cases bound : ∃ apiKey, s.Bound (hashApiKey host secret plaintextKey) merchantNft apiKey
  · obtain ⟨apiKey,bound⟩ := bound
    have only (passes : ApiKey → Prop) :
        (∃ other, s.Bound (hashApiKey host secret plaintextKey) merchantNft other ∧
          passes other) ↔ passes apiKey := by
      constructor
      · rintro ⟨other,found,holds⟩
        exact Option.some.inj (found.1.symm.trans bound.1) ▸ holds
      · exact fun holds => ⟨apiKey,bound,holds⟩
    rw [only,only,only,only]
    exact unexpired_iff_expired apiKey order
  · have never (passes : ApiKey → Prop) :
        ¬∃ other, s.Bound (hashApiKey host secret plaintextKey) merchantNft other ∧
          passes other := fun ⟨other,found,_⟩ => bound ⟨other,found⟩
    simp only [never,not_false_eq_true,and_self]

/-- Of every run, each check agrees with the validation of the key exactly where the key has not
run out behind the cache and its expiry, if any, is a date. -/
theorem authorization_transparent_iff {calls : List (ℤ × Call)} (ordered : Ordered calls)
    {past : List (ℤ × Call)} {now : ℤ} {plaintextKey merchantNft : JsString}
    (here : (now,.isAuthorizedMerchant plaintextKey merchantNft) :: past <:+ calls) :
    (run host secret past).Transparent host secret now plaintextKey merchantNft ↔
      ¬(run host secret past).Lapsed host secret now plaintextKey merchantNft ∧
      ¬(run host secret past).Undated host secret plaintextKey merchantNft := by
  obtain ⟨latest,earlier⟩ := List.pairwise_cons.mp (ordered.sublist here.sublist)
  exact transparent_iff (run_sound earlier now latest) plaintextKey merchantNft

end Checks

section Card

/-- HMAC-SHA256 with its value on the key below. -/
def cardHost : Host where
  sha256 _ := 0
  hmacSha256 _ _ := 0xbd455e244c91fdfe361b858553eaa7f397369710843966d63a9b796593191161#256
  isoText _ := js "2026-01-01T00:00:00.000Z"

def cardSecret : JsString := js "api-key-secret-0123456789abcdef0"
def cardKey : JsString := js "tbc_live_0123456789abcdef0123456789abcdef"
def cardMerchant : JsString := js "EQAjHkHtt1MIoU5c7dks73Rz8NMxAA3oStSrcQ_qgn3il-Le"

/-- A key of ten seconds, checked after five. -/
def cardRun : List (ℤ × Call) :=
  [(1767225605000,.isAuthorizedMerchant cardKey cardMerchant),
   (1767225600000,.registerApiKey (js "key_0123456789abcdef0123456789abcdef") cardKey cardMerchant
      none ⟨none,none,none⟩ (some ⟨js "2026-01-01T00:00:10.000Z",some 1767225610000⟩))]

theorem cardRun_transparent :
    (run cardHost cardSecret cardRun.tail).Transparent cardHost cardSecret 1767225605000
      cardKey cardMerchant := by
  have ordered : Ordered cardRun := by simp [Ordered,cardRun]
  have current : ((run cardHost cardSecret cardRun.tail).apiKeyRegistry.get
      (hashApiKey cardHost cardSecret cardKey)).all (fun apiKey => apiKey.expiry.all fun expiry =>
        expiry.time.any (1767225605000 ≤ ·)) = true := by decide +kernel
  have here : (1767225605000,.isAuthorizedMerchant cardKey cardMerchant) :: cardRun.tail <:+
      cardRun := List.suffix_refl _
  refine (authorization_transparent_iff ordered here).mpr ⟨?_,?_⟩
  · rintro ⟨apiKey,bound,expiry,given,time,dated,lapsed,_⟩
    simp [bound.1,given,dated] at current
    omega
  · rintro ⟨apiKey,bound,expiry,given,undated⟩
    simp [bound.1,given,undated] at current

/-- A second after the key has run out, the cache still authorizes it. -/
theorem cardRun_lapsed :
    ¬∀ (host : Host) (secret : JsString) (calls : List (ℤ × Call)), Ordered calls →
      ∀ past now plaintextKey merchantNft,
        (now,.isAuthorizedMerchant plaintextKey merchantNft) :: past <:+ calls →
        (run host secret past).Transparent host secret now plaintextKey merchantNft := by
  intro transparent
  have ordered : Ordered ((1767225611000,.isAuthorizedMerchant cardKey cardMerchant) :: cardRun) :=
    by simp [Ordered,cardRun]
  obtain ⟨apiKey,valid,_⟩ := (transparent cardHost cardSecret _ ordered cardRun 1767225611000
    cardKey cardMerchant (List.suffix_refl _)).mp (by decide +kernel)
  have expired : (run cardHost cardSecret cardRun).findAndValidateKey cardHost cardSecret
      1767225611000 cardKey = .error "API key has expired" := by decide +kernel
  simp [expired] at valid

end Card

end Tonbankcard.MerchantApi.ApiKeyService
