import AnchorKit.RetryLoops
import AnchorKit.StellarTomlOrigins

/-!
# Discovery with retries and fallback hosts

The hosts are tried in order. A host that is no anchor domain is not asked at all, and any other
one is asked for its well-known address until it answers with a document or its attempts are used
up. The first document that is not too large ends the discovery.
-/

namespace AnchorKit

open Fallible Retry

namespace StellarToml

def maxStellarTomlBytes : ℕ := 100 * 1024

structure StellarTomlFetchConfig where
  retry : Retry.RetryConfig
  fallbackHosts : List Text

def oversizedDocument (url : Text) : AnchorKitError :=
  .withContext .invalidEndpointFormat "stellar.toml document exceeds maximum allowed size"
    (String.ofList url)

section Fetching

variable {W J : Type} [JitterSource J] (config : StellarTomlFetchConfig)
  (fetchFn : Text → W → Except AnchorKitError Text × W) (sleepFn : UInt64 → W → W)

end Fetching

/-! ### What is asked of the hosts -/

structure Fetch where
  url : Text
  answer : Except AnchorKitError Text

/-- A host whose turn it was, with the answers to the calls that were made for it. -/
structure Trial where
  host : Text
  answers : List (Except AnchorKitError Text)

namespace Trial

def calls (trial : Trial) : List Fetch := trial.answers.map (Fetch.mk (wellKnownUrl trial.host))

/-- Only an anchor domain is asked, and no more often than allowed. -/
structure Permitted (limit : ℕ) (trial : Trial) : Prop where
  accepted : trial.answers ≠ [] ↔ validateAnchorDomain trial.host = .ok ()
  few : trial.answers.length ≤ limit

/-- The error of a host without an acceptable document. -/
def failure (trial : Trial) : Option AnchorKitError :=
  match validateAnchorDomain trial.host with
  | .error e => some e
  | .ok () =>
    match trial.answers.getLast? with
    | some (.error e) => some e
    | some (.ok _) => some (oversizedDocument (wellKnownUrl trial.host))
    | none => none

end Trial

def Acceptable (answer : Except AnchorKitError Text) (document : Text) : Prop :=
  answer = .ok document ∧ Text.byteLen document ≤ maxStellarTomlBytes

section Discovery

variable {limit : ℕ} {lastErr : Option AnchorKitError} {hosts : List (Text × Bool)}
  {trial : Trial} {trials : List Trial} {result : Except AnchorKitError StellarTomlFetchResult}

section Asked

variable {host : Text} {failures : List AnchorKitError} {answer : Except AnchorKitError Text}
  {document : Text} {e : AnchorKitError}

end Asked

namespace Tries

end Tries

end Discovery

section Runs

variable {W J : Type} [JitterSource J] (config : StellarTomlFetchConfig)
  (fetchFn : Text → W → Except AnchorKitError Text × W) (sleepFn : UInt64 → W → W)

end Runs

end StellarToml

end AnchorKit
