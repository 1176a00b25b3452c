import Tonbankcard.JsNumbers

/-! The address under which the indexer's API limits a client, for requests that reach it through
proxies. Each proxy adds the address of its peer to the forwarding header; what a client put there
itself may be anything. -/
namespace Tonbankcard.ClientIp

open EcmaScript

section Server

/-- The header `X-Forwarded-For`, one line or several. -/
inductive ForwardedFor where
  | absent
  | line (value : JsString)
  | lines (values : List JsString)

def ForwardedFor.raw : ForwardedFor → List JsString
  | .absent => []
  | .line value => if value.isEmpty then [] else [value]
  | .lines values => values

def splitForwardedFor (value : ForwardedFor) : List JsString :=
  ((value.raw.flatMap fun raw => raw.splitOn 44).map trim).filter fun part => !part.isEmpty

structure ClientIpOptions where
  trustProxy : Bool
  trustedProxyCount : ℚ

structure Request where
  forwardedFor : ForwardedFor
  remoteAddress : Option JsString

def getClientIp (req : Request) (options : ClientIpOptions) : JsString :=
  let remoteAddress := (req.remoteAddress.filter fun address => !address.isEmpty).getD (js "unknown")
  if !options.trustProxy then remoteAddress
  else
    let trustedProxyCount := max 0 ⌊options.trustedProxyCount⌋
    let chain := splitForwardedFor req.forwardedFor ++ [remoteAddress]
    let clientIndex := (chain.length : ℤ) - trustedProxyCount - 1
    if 0 ≤ clientIndex then chain.getD clientIndex.toNat [] else remoteAddress

end Server

section Proxies

/-- A proxy adds its peer behind what it was sent, in the last line or in a line of its own. -/
inductive Forwards (peer : JsString) : ForwardedFor → ForwardedFor → Prop
  | first : Forwards peer .absent (.line peer)
  | appended (value : JsString) : Forwards peer (.line value) (.line (value ++ js ", " ++ peer))
  | line (values : List JsString) : Forwards peer (.lines values) (.lines (values ++ [peer]))
  | joined (values : List JsString) (value : JsString) :
      Forwards peer (.lines (values ++ [value])) (.lines (values ++ [value ++ js ", " ++ peer]))

/-- A request on its way from a peer to the server, through one proxy after the other. -/
inductive Reaches : JsString → ForwardedFor → List JsString → Request → Prop
  | arrived : Reaches peer header [] ⟨header,some peer⟩
  | hop (forwards : Forwards peer header sent) (onward : Reaches proxy sent proxies req) :
      Reaches peer header (proxy :: proxies) req

/-- The text of an address: visible, without a comma. -/
structure IsAddress (text : JsString) : Prop where
  filled : text ≠ []
  solid : ∀ unit ∈ text, isBlank unit = false ∧ unit ≠ 44

theorem trim_address (peer : IsAddress text) : trim text = text :=
  trim_solid fun unit member => (peer.solid unit member).1

theorem trim_spaced (peer : IsAddress text) : trim (32 :: text) = text := by
  have same : trim (32 :: text) = trim text := rfl
  rw [same,trim_address peer]

/-- The parts of a line that is sent on. -/
theorem splitOn_forwarded (peer : IsAddress text) (value : JsString) :
    (value ++ js ", " ++ text).splitOn 44 = value.splitOn 44 ++ [32 :: text] := by
  have separator : value ++ js ", " ++ text = value ++ 44 :: (32 :: text) := by
    simp [show js ", " = [44,32] from rfl]
  have apart : 44 ∉ 32 :: text := fun member =>
    (List.mem_cons.mp member).elim (fun same => absurd same (by decide))
      fun member => (peer.solid 44 member).2 rfl
  rw [separator,List.splitOn_append_cons_self,List.splitOn_eq_singleton apart]

theorem splitOn_address (peer : IsAddress text) : text.splitOn 44 = [text] :=
  List.splitOn_eq_singleton fun member => (peer.solid 44 member).2 rfl

/-- Whatever was sent to a proxy, it sends its peer behind it. -/
theorem splitForwardedFor_forwards (peer : IsAddress text) (forwards : Forwards text header sent) :
    splitForwardedFor sent = splitForwardedFor header ++ [text] := by
  have kept : [text].filter (fun part => !part.isEmpty) = [text] := by simp [peer.filled]
  have ends (parts : List JsString) : ((parts ++ [32 :: text]).map trim).filter
      (fun part => !part.isEmpty) =
        (parts.map trim).filter (fun part => !part.isEmpty) ++ [text] := by
    rw [List.map_append,List.map_singleton,trim_spaced peer,List.filter_append,kept]
  have alone (parts : List JsString) : ((parts ++ [text]).map trim).filter
      (fun part => !part.isEmpty) =
        (parts.map trim).filter (fun part => !part.isEmpty) ++ [text] := by
    rw [List.map_append,List.map_singleton,trim_address peer,List.filter_append,kept]
  cases forwards with
  | first =>
    simpa [splitForwardedFor,ForwardedFor.raw,peer.filled,splitOn_address peer] using alone []
  | appended value =>
    have sent : (ForwardedFor.line (value ++ js ", " ++ text)).raw =
        [value ++ js ", " ++ text] := by simp [ForwardedFor.raw,peer.filled]
    rw [splitForwardedFor,sent,List.flatMap_singleton,splitOn_forwarded peer,ends]
    cases value with
    | nil => rfl
    | cons unit rest => simp [splitForwardedFor,ForwardedFor.raw]
  | line values =>
    simp only [splitForwardedFor,ForwardedFor.raw,List.flatMap_append,List.flatMap_singleton,
      splitOn_address peer,alone]
  | joined values value =>
    simp only [splitForwardedFor,ForwardedFor.raw,List.flatMap_append,List.flatMap_singleton,
      splitOn_forwarded peer,← List.append_assoc,ends]

/-- The chain that the server sees ends with the client and the proxies behind it. -/
theorem chain_reaches (reaches : Reaches client header proxies req) (source : IsAddress client)
    (trusted : ∀ proxy ∈ proxies, IsAddress proxy) :
    ∃ last, req.remoteAddress = some last ∧ last ≠ [] ∧
      splitForwardedFor req.forwardedFor ++ [last] =
        splitForwardedFor header ++ client :: proxies := by
  induction reaches with
  | arrived => exact ⟨_,rfl,source.filled,rfl⟩
  | hop forwards _ ih =>
    obtain ⟨next,others⟩ := List.forall_mem_cons.mp trusted
    obtain ⟨last,remote,filled,chain⟩ := ih next others
    refine ⟨last,remote,filled,?_⟩
    rw [chain,splitForwardedFor_forwards source forwards,List.append_assoc,List.singleton_append]

/-- Behind as many proxies as are trusted the limit is charged to the client, whatever it claims to
forward. -/
theorem getClientIp_reaches {options : ClientIpOptions}
    (reaches : Reaches client header proxies req) (source : IsAddress client)
    (trusted : ∀ proxy ∈ proxies, IsAddress proxy) (proxied : options.trustProxy = true)
    (counted : ⌊options.trustedProxyCount⌋ = proxies.length) :
    getClientIp req options = client := by
  obtain ⟨last,remote,filled,chain⟩ := chain_reaches reaches source trusted
  have address : (req.remoteAddress.filter fun address => !address.isEmpty).getD (js "unknown") =
      last := by
    rw [remote,Option.filter_some,List.isEmpty_eq_false_iff.mpr filled]
    rfl
  have length : ((splitForwardedFor header ++ client :: proxies).length : ℤ) -
      max 0 (proxies.length : ℤ) - 1 = (splitForwardedFor header).length := by
    simp only [List.length_append,List.length_cons,Nat.cast_add,Nat.cast_one]
    omega
  simp only [getClientIp,proxied,counted,address,chain,length,Bool.not_true,Bool.false_eq_true,
    if_false]
  rw [if_pos (Int.natCast_nonneg _),Int.toNat_natCast,List.getD_eq_getElem?_getD,
    List.getElem?_append_right (le_refl _),Nat.sub_self]
  rfl

/-- A client that claims to forward for another, behind two proxies. -/
theorem getClientIp_reaches_forged : getClientIp
    ⟨.line (js "9.9.9.9, 8.8.8.8" ++ js ", " ++ js "203.0.113.7" ++ js ", " ++ js "10.0.0.2"),
      some (js "10.0.0.3")⟩ ⟨true,2⟩ = js "203.0.113.7" := by
  have visible : ∀ text ∈ [js "203.0.113.7",js "10.0.0.2",js "10.0.0.3"], IsAddress text := by
    intro text member
    have checked : ([js "203.0.113.7",js "10.0.0.2",js "10.0.0.3"]).all (fun text =>
        !text.isEmpty && text.all fun unit => !isBlank unit && unit != 44) = true := by decide
    have one := List.all_eq_true.mp checked text member
    simp only [Bool.and_eq_true,Bool.not_eq_true',List.isEmpty_eq_false_iff,
      List.all_eq_true,bne_iff_ne] at one
    exact ⟨one.1,one.2⟩
  have reaches : Reaches (js "203.0.113.7") (.line (js "9.9.9.9, 8.8.8.8"))
      [js "10.0.0.2",js "10.0.0.3"] ⟨.line (js "9.9.9.9, 8.8.8.8" ++ js ", " ++ js "203.0.113.7" ++
        js ", " ++ js "10.0.0.2"),some (js "10.0.0.3")⟩ :=
    .hop (.appended _) (.hop (.appended _) .arrived)
  refine getClientIp_reaches reaches (visible _ (by simp))
    (fun proxy member => visible proxy (List.mem_cons_of_mem _ member)) rfl ?_
  simp

end Proxies
end Tonbankcard.ClientIp
