import AnchorKit.Library.Text
import AnchorKit.Types

/-!
# Validation of anchor domains

The checks that an address passes before it is used: scheme, characters, authority, path, host and
port, and after them the rules of a deployment for hosts.
-/

namespace AnchorKit

/-!
## Parts of a URL

Behind the scheme stands the authority, which ends at the first slash, question mark or number sign.
-/

def httpsPrefix : Text := "https://".toList

def endsAuthority (c : Char) : Bool := c = '/' || c = '?' || c = '#'

def authorityOf (afterScheme : Text) : Text := afterScheme.takeWhile fun c => !endsAuthority c

def restOf (afterScheme : Text) : Text := afterScheme.dropWhile fun c => !endsAuthority c

structure SplitsAs (afterScheme authority rest : Text) : Prop where
  eq_append : afterScheme = authority ++ rest
  inside : ∀ c ∈ authority, endsAuthority c = false
  behind : ∀ c ∈ rest.head?, endsAuthority c = true

section Split

variable {afterScheme authority rest : Text}

theorem splitsAs_self (afterScheme : Text) :
    SplitsAs afterScheme (authorityOf afterScheme) (restOf afterScheme) := by
  refine ⟨(List.takeWhile_append_dropWhile).symm, fun c hc => ?_, fun c hc => ?_⟩
  · simpa using List.mem_takeWhile_imp hc
  · have hhead := List.head?_dropWhile_not (fun c => !endsAuthority c) afterScheme
    unfold restOf at hc
    rw [Option.mem_def.mp hc] at hhead
    simpa using hhead

theorem SplitsAs.authorityOf_eq (h : SplitsAs afterScheme authority rest) :
    authorityOf afterScheme = authority := by
  obtain ⟨rfl, hinside, hbehind⟩ := h
  unfold authorityOf
  rw [List.takeWhile_append_of_pos (by simpa using hinside)]
  cases rest with
  | nil => simp
  | cons c rest => simp [hbehind c rfl]

theorem SplitsAs.restOf_eq (h : SplitsAs afterScheme authority rest) :
    restOf afterScheme = rest := by
  have heq : authority ++ restOf afterScheme = authority ++ rest := by
    rw [← h.eq_append, ← h.authorityOf_eq]
    exact List.takeWhile_append_dropWhile
  exact List.append_cancel_left heq

theorem SplitsAs.drop_eq (h : SplitsAs afterScheme authority rest) :
    afterScheme.drop authority.length = rest := by
  rw [h.eq_append, List.drop_left]

end Split

/-!
## Domains of anchors

The checks that the address of an anchor has to pass.
-/

open Fallible

def forbiddenUrlChars : Text := ['<', '>', '{', '}', '|', '\\', '[', ']', '^', '\x60']

def validateUrlCharacters (url : Text) : Except AnchorKitError Unit :=
  url.forM fun c => do
    require (Text.isAscii c = true) .invalidEndpointFormat
    require (Text.isAsciiControl c = false) .invalidEndpointFormat
    require (c ≠ ' ') .invalidEndpointFormat
    require (forbiddenUrlChars.contains c = false) .invalidEndpointFormat

def validateLabel (label : Text) : Except AnchorKitError Unit := do
  require (label ≠ []) .invalidEndpointFormat
  require (Text.byteLen label ≤ 63) .invalidEndpointFormat
  require ((label.head?.any Char.isAlphanum && label.getLast?.any Char.isAlphanum) = true)
    .invalidEndpointFormat
  label.forM fun c => require ((c.isAlphanum || c = '-') = true) .invalidEndpointFormat

/-- The host without its port, which is checked on the way. -/
def splitPort (host : Text) : Except AnchorKitError Text :=
  match Text.rcutAt ':' host with
  | some (domain, port) => do
    require (port ≠ []) .invalidEndpointFormat
    require (port.all Char.isDigit = true) .invalidEndpointFormat
    require ((Text.parseU32 port).any (fun p => 1 ≤ p && p ≤ 65535) = true) .invalidEndpointFormat
    return domain
  | none => return host

def validateHost (host : Text) : Except AnchorKitError Unit := do
  require (host ≠ []) .invalidEndpointFormat
  require (host.contains ' ' = false) .invalidEndpointFormat
  let domainWithoutPort ← splitPort host
  require (domainWithoutPort ≠ []) .invalidEndpointFormat
  require (Text.byteLen domainWithoutPort ≤ 253) .invalidEndpointFormat
  require (domainWithoutPort.contains '.' = true) .invalidEndpointFormat
  require ((Text.cutAt ['.', '.'] domainWithoutPort).isNone = true) .invalidEndpointFormat
  require (domainWithoutPort.head? ≠ some '.' ∧ domainWithoutPort.getLast? ≠ some '.')
    .invalidEndpointFormat
  let labels := domainWithoutPort.splitOn '.'
  require ((labels.all fun label => label.all Char.isDigit) = false) .invalidEndpointFormat
  labels.forM validateLabel

def pathOf (rest : Text) : Text := rest.takeWhile fun c => c ≠ '?' && c ≠ '#'

def validateAnchorDomain (domain : Text) : Except AnchorKitError Unit := do
  require (Text.trimMatches isWhitespace domain ≠ []) .invalidEndpointFormat
  require (domain = Text.trimMatches isWhitespace domain) .invalidEndpointFormat
  require (12 ≤ Text.byteLen domain) .invalidEndpointFormat
  require (Text.byteLen domain ≤ 2048) .invalidEndpointFormat
  require (httpsPrefix.isPrefixOf domain = true) .invalidEndpointFormat
  validateUrlCharacters domain
  let afterScheme := domain.drop httpsPrefix.length
  require (afterScheme ≠ []) .invalidEndpointFormat
  let authority := authorityOf afterScheme
  require (authority ≠ []) .invalidEndpointFormat
  require (authority.contains '@' = false) .invalidEndpointFormat
  require (¬ (authority.head? ≠ some '[' ∧ 1 < authority.count ':')) .invalidEndpointFormat
  let path := pathOf (afterScheme.drop authority.length)
  require (path = [] ∨ path = ['/']) .invalidEndpointFormat
  validateHost authority

/-! ### Rules for hosts -/

inductive PolicyAction
  | allow
  | deny
deriving DecidableEq, Repr

structure DomainPolicyRule where
  action : PolicyAction
  hostPattern : Text
deriving DecidableEq, Repr

structure DomainPolicy where
  rules : List DomainPolicyRule
  defaultDeny : Bool
deriving DecidableEq, Repr

namespace DomainPolicy

def allowAll : DomainPolicy := ⟨[], false⟩

def denyAll : DomainPolicy := ⟨[], true⟩

def withRule (policy : DomainPolicy) (action : PolicyAction) (hostPattern : Text) : DomainPolicy :=
  let trimmed := Text.trimMatches isWhitespace hostPattern
  if trimmed = [] then policy
  else { policy with rules := policy.rules ++ [⟨action, trimmed⟩] }

def withAllow (policy : DomainPolicy) (hostPattern : Text) : DomainPolicy :=
  policy.withRule .allow hostPattern

def withDeny (policy : DomainPolicy) (hostPattern : Text) : DomainPolicy :=
  policy.withRule .deny hostPattern

def ruleApplies (hostLower : Text) (rule : DomainPolicyRule) : Bool :=
  let pattern := Text.asciiLower rule.hostPattern
  pattern ≠ [] && (hostLower = pattern || ('.' :: pattern).isSuffixOf hostLower)

def permits (policy : DomainPolicy) (host : Text) : Bool :=
  match policy.rules.find? (ruleApplies host.asciiLower) with
  | some rule => rule.action = .allow
  | none => !policy.defaultDeny

end DomainPolicy

def extractHost (domain : Text) : Text :=
  if httpsPrefix.isPrefixOf domain then
    let authority := authorityOf (domain.drop httpsPrefix.length)
    match Text.rcutAt ':' authority with
    | some (host, port) => if port ≠ [] && port.all Char.isDigit then host else authority
    | none => authority
  else []

def validateAnchorDomainWithPolicy (domain : Text) (policy : Option DomainPolicy) :
    Except AnchorKitError Unit := do
  validateAnchorDomain domain
  match policy with
  | some policy =>
    let host := extractHost domain
    require (policy.permits host = true) (.withContext .invalidEndpointFormat
      "Anchor domain is blocked by deployment policy" (String.ofList host))
  | none => return ()

end AnchorKit
