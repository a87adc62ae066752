import AnchorKit.DomainValidator
import AnchorKit.Library.Roster
import AnchorKit.UrlNormalizer

/-!
# stellar.toml

The parser walks over the lines of a document. It looks for the top-level fields outside of currency
blocks and for the keys of a currency inside of them, and a block is put down when the next header
or the end of the document is reached.
-/

namespace AnchorKit

open Fallible

namespace StellarToml

structure ParsedCurrency where
  code : Text
  issuer : Option Text
  status : Option Text
deriving DecidableEq, Repr

def ParsedCurrency.empty : ParsedCurrency := ⟨[], none, none⟩

structure Endpoints where
  networkPassphrase : Option Text
  transferServer : Option Text
  transferServerSep0024 : Option Text
  kycServer : Option Text
  webAuthEndpoint : Option Text
  signingKey : Option Text
  directPaymentServer : Option Text
  anchorQuoteServer : Option Text
deriving DecidableEq, Repr

def Endpoints.empty : Endpoints := ⟨.none, .none, .none, .none, .none, .none, .none, .none⟩

structure ParsedStellarToml extends Endpoints where
  supportedAssets : List Text
  currencies : List ParsedCurrency
deriving DecidableEq, Repr

inductive Field
  | networkPassphrase
  | transferServer
  | transferServerSep0024
  | kycServer
  | webAuthEndpoint
  | signingKey
  | directPaymentServer
  | anchorQuoteServer
deriving DecidableEq, Repr

namespace Field

def all : List Field :=
  [.networkPassphrase, .transferServer, .transferServerSep0024, .kycServer, .webAuthEndpoint,
    .signingKey, .directPaymentServer, .anchorQuoteServer]

def key : Field → Text
  | .networkPassphrase => "NETWORK_PASSPHRASE".toList
  | .transferServer => "TRANSFER_SERVER".toList
  | .transferServerSep0024 => "TRANSFER_SERVER_SEP0024".toList
  | .kycServer => "KYC_SERVER".toList
  | .webAuthEndpoint => "WEB_AUTH_ENDPOINT".toList
  | .signingKey => "SIGNING_KEY".toList
  | .directPaymentServer => "DIRECT_PAYMENT_SERVER".toList
  | .anchorQuoteServer => "ANCHOR_QUOTE_SERVER".toList

/-- The value of the field must be the domain of an anchor. -/
def isUrl : Field → Bool
  | .networkPassphrase | .signingKey => false
  | _ => true

def ofKey (key : Text) : Option Field := all.find? fun field => field.key = key

end Field

namespace Endpoints

def get (e : Endpoints) : Field → Option Text
  | .networkPassphrase => e.networkPassphrase
  | .transferServer => e.transferServer
  | .transferServerSep0024 => e.transferServerSep0024
  | .kycServer => e.kycServer
  | .webAuthEndpoint => e.webAuthEndpoint
  | .signingKey => e.signingKey
  | .directPaymentServer => e.directPaymentServer
  | .anchorQuoteServer => e.anchorQuoteServer

def set (e : Endpoints) (value : Text) : Field → Endpoints
  | .networkPassphrase => { e with networkPassphrase := value }
  | .transferServer => { e with transferServer := value }
  | .transferServerSep0024 => { e with transferServerSep0024 := value }
  | .kycServer => { e with kycServer := value }
  | .webAuthEndpoint => { e with webAuthEndpoint := value }
  | .signingKey => { e with signingKey := value }
  | .directPaymentServer => { e with directPaymentServer := value }
  | .anchorQuoteServer => { e with anchorQuoteServer := value }

end Endpoints

inductive Section
  | other
  | currencies
deriving DecidableEq, Repr

structure Parser where
  endpoints : Endpoints
  currencies : List ParsedCurrency
  table : Section
  current : Option ParsedCurrency
deriving DecidableEq, Repr

def Parser.start : Parser := ⟨.empty, [], .other, none⟩

def flushCurrency (current : Option ParsedCurrency) (currencies : List ParsedCurrency) :
    Except AnchorKitError (List ParsedCurrency) :=
  match current with
  | some c =>
    if c.code ≠ [] then .ok (currencies ++ [c])
    else .error (.validationError "CURRENCIES block missing code field")
  | none => .ok currencies

def trimmed (t : Text) : Text := Text.trimMatches isWhitespace t

/-- The text without the quotes around it. -/
def unquote (raw : Text) : Text :=
  if raw.head? = some '"' ∧ raw.getLast? = some '"' ∧ 2 ≤ raw.length then raw.tail.dropLast else raw

/-- The quotes go before the comment does. -/
def readValue (raw : Text) : Text := trimmed ((unquote raw).takeWhile fun c => c ≠ '#')

def parseKv (line : Text) : Option (Text × Text) := do
  let (front, back) ← Text.cutAt ['='] line
  let key := trimmed front
  let value := readValue (trimmed back)
  if key = [] then none else some (key, value)

def ParsedCurrency.assign (cur : ParsedCurrency) (key value : Text) :
    Except AnchorKitError ParsedCurrency :=
  if key = "code".toList then .ok { cur with code := value }
  else if key = "issuer".toList then do
    require (trimmed value ≠ []) (.validationError "CURRENCIES block has empty issuer field")
    return { cur with issuer := some value }
  else if key = "status".toList then .ok { cur with status := some value }
  else .ok cur

namespace Parser

def assign (p : Parser) (key value : Text) : Except AnchorKitError Parser :=
  match p.table with
  | .currencies => do
    let cur ← (p.current.getD .empty).assign key value
    return { p with current := some cur }
  | .other =>
    match Field.ofKey key with
    | some field => do
      if field.isUrl then validateAnchorDomain value
      return { p with endpoints := p.endpoints.set value field }
    | none => .ok p

def openTable (p : Parser) (isCurrencies : Bool) : Except AnchorKitError Parser := do
  let currencies ← flushCurrency p.current p.currencies
  if isCurrencies then
    return { p with currencies, table := .currencies, current := some .empty }
  return { p with currencies, table := .other, current := none }

def isBracket (c : Char) : Bool := c = '[' || c = ']'

def parseLine (p : Parser) (raw : Text) : Except AnchorKitError Parser :=
  let line := trimmed raw
  if line.head? = some '#' ∨ line = [] then .ok p
  else if line.head? = some '[' then
    let header := trimmed (Text.trimMatches isBracket line)
    p.openTable (Text.eqIgnoreAsciiCase header "CURRENCIES".toList)
  else
    match parseKv line with
    | some (key, value) => p.assign key value
    | none => .ok p

/-- The last block is put down, and the codes are listed without repetition. -/
def finish (p : Parser) : Except AnchorKitError ParsedStellarToml := do
  let currencies ← flushCurrency p.current p.currencies
  let supportedAssets := currencies.foldl (fun assets c => Roster.pushIfAbsent assets c.code) []
  return { p.endpoints with supportedAssets, currencies }

end Parser

/-- `str::lines`. The empty line behind a last line break, which it leaves out, is skipped. -/
def lines (raw : Text) : List Text :=
  (raw.splitOn '\n').map fun line => (stripEnding ['\r'] line).getD line

def parseStellarToml (raw : Text) : Except AnchorKitError ParsedStellarToml := do
  let p ← (lines raw).foldlM Parser.parseLine .start
  p.finish

end StellarToml

end AnchorKit
