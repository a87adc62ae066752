import AnchorKit.Library.OrderedMap
import AnchorKit.TraceContext

/-!
# Correlation of requests across services

A context follows a request from hop to hop in four headers. The entries of its baggage are joined
with commas and equals signs, and nothing is escaped. SHA-256 is a parameter.
-/

namespace AnchorKit

open Fallible

inductive CorrelationError
  | missingCorrelationId
  | invalidCorrelationId (id : Text)
  | invalidHopCount (value : Text)
deriving DecidableEq, Repr

def correlationIdHeader : Text := "X-Correlation-Id".toList

def originServiceHeader : Text := "X-Origin-Service".toList

def hopCountHeader : Text := "X-Hop-Count".toList

def baggageHeader : Text := "X-Baggage".toList

structure CorrelationContext where
  correlationId : Text
  originService : Text
  currentService : Text
  hopCount : UInt32
  baggage : Std.TreeMap Text Text

namespace CorrelationContext

def validateCorrelationId (id : Text) : Except CorrelationError Unit :=
  require (Text.byteLen id = 32 ∧ id.utf8.all TraceContext.isLowerHex = true)
    (.invalidCorrelationId id)

def deriveCorrelationId (sha256 : Bytes → BytesN 32) (seed : Text) : Text :=
  ((sha256 seed.utf8).val.take 16).flatMap fun b : UInt8 =>
    [TraceContext.hexNibble (b >>> 4), TraceContext.hexNibble (b &&& 0x0f)]

def new (sha256 : Bytes → BytesN 32) (originatingService seed : Text) : CorrelationContext where
  correlationId := deriveCorrelationId sha256 seed
  originService := originatingService
  currentService := originatingService
  hopCount := 0
  baggage := ∅

def withId (originatingService id : Text) : Except CorrelationError CorrelationContext := do
  validateCorrelationId id
  return {
    correlationId := id
    originService := originatingService
    currentService := originatingService
    hopCount := 0
    baggage := ∅ }

def setBaggage (c : CorrelationContext) (key value : Text) : CorrelationContext :=
  { c with baggage := c.baggage.insert key value }

def nextHop (c : CorrelationContext) (nextService : Text) : CorrelationContext :=
  { c with currentService := nextService, hopCount := Word.saturatingAdd32 c.hopCount 1 }

def formatEntry (entry : Text × Text) : Text := entry.1 ++ '=' :: entry.2

def toHeaders (c : CorrelationContext) : List (Text × Text) :=
  [(correlationIdHeader, c.correlationId), (originServiceHeader, c.originService),
    (hopCountHeader, Nat.toDigits 10 c.hopCount.toNat)] ++
  if c.baggage.isEmpty then []
  else [(baggageHeader, [','].intercalate (c.baggage.toList.map formatEntry))]

/-- An entry of the baggage; one without an equals sign or with a blank key is skipped. -/
def parseEntry (pair : Text) : Option (Text × Text) :=
  match Text.cutAt ['='] (Text.trimMatches isWhitespace pair) with
  | none => none
  | some (k, v) =>
    let k := Text.trimMatches isWhitespace k
    if k = [] then none else some (k, Text.trimMatches isWhitespace v)

def insertEntry (baggage : Std.TreeMap Text Text) (pair : Text) : Std.TreeMap Text Text :=
  match parseEntry pair with
  | some (k, v) => baggage.insert k v
  | none => baggage

/-- What the headers so far have said. -/
structure Parsed where
  correlationId : Option Text
  originService : Option Text
  hopCount : UInt32
  baggage : Std.TreeMap Text Text

def readHeader (p : Parsed) (header : Text × Text) : Except CorrelationError Parsed := do
  let (n, value) := header
  if Text.eqIgnoreAsciiCase n correlationIdHeader then
    return { p with correlationId := some value }
  else if Text.eqIgnoreAsciiCase n originServiceHeader then
    return { p with originService := some value }
  else if Text.eqIgnoreAsciiCase n hopCountHeader then
    let hopCount ← expect (Text.parseU32 value) (.invalidHopCount value)
    return { p with hopCount }
  else if Text.eqIgnoreAsciiCase n baggageHeader then
    return { p with baggage := (value.splitOn ',').foldl insertEntry p.baggage }
  else return p

def fromHeaders (headers : List (Text × Text)) : Except CorrelationError CorrelationContext := do
  let p ← headers.foldlM readHeader ⟨none, none, 0, ∅⟩
  let id ← expect p.correlationId .missingCorrelationId
  validateCorrelationId id
  let origin := p.originService.getD []
  return {
    correlationId := id
    originService := origin
    currentService := origin
    hopCount := p.hopCount
    baggage := p.baggage }

/-! ### The baggage -/

section Entries

def Carried (t : Text) : Prop := Text.trimMatches isWhitespace t = t ∧ ',' ∉ t

/-- An entry that the baggage header carries unchanged. -/
structure CarriedEntry (k v : Text) : Prop where
  key : Carried k
  value : Carried v
  nonempty : k ≠ []
  equals : '=' ∉ k

variable {k v pair : Text}

theorem carriedEntry_of_parse (hpair : ',' ∉ pair) (h : parseEntry pair = some (k, v)) :
    CarriedEntry k v := by
  unfold parseEntry at h
  split at h
  · cases h
  · rename_i front back hcut
    have hparts := Text.eq_of_cutAt hcut
    have hcomma : ∀ c ∈ front ++ (['='] ++ back), c ∈ pair := fun c hc =>
      Text.mem_of_mem_trimMatches (hparts ▸ hc)
    dsimp only at h
    split at h
    · cases h
    · rename_i hne
      obtain ⟨rfl, rfl⟩ := Prod.mk.inj (Option.some.inj h)
      refine ⟨⟨Text.trimMatches_trimMatches _ _, fun hmem => hpair (hcomma _ ?_)⟩,
        ⟨Text.trimMatches_trimMatches _ _, fun hmem => hpair (hcomma _ ?_)⟩, hne, fun hmem => ?_⟩
      · exact List.mem_append_left _ (Text.mem_of_mem_trimMatches hmem)
      · exact List.mem_append_right _ (List.mem_append_right _ (Text.mem_of_mem_trimMatches hmem))
      · exact Text.not_mem_of_cutAt hcut (Text.mem_of_mem_trimMatches hmem)

theorem parseEntry_format (h : CarriedEntry k v) : parseEntry (formatEntry (k, v)) = some (k, v) := by
  have htrim : Text.trimMatches isWhitespace (formatEntry (k, v)) = formatEntry (k, v) := by
    obtain ⟨hhead, -⟩ := Text.trimMatches_eq_self.mp h.key.1
    obtain ⟨-, hlast⟩ := Text.trimMatches_eq_self.mp h.value.1
    refine Text.trimMatches_eq_self.mpr ⟨fun c hc => hhead c ?_, fun c hc => ?_⟩
    · rwa [formatEntry, List.head?_append_of_ne_nil _ h.nonempty] at hc
    · rw [formatEntry, List.getLast?_append_of_ne_nil _ (List.cons_ne_nil _ _)] at hc
      cases v with
      | nil =>
        obtain rfl := Option.some.inj hc
        rfl
      | cons d v =>
        rw [List.getLast?_cons_cons] at hc
        exact hlast c hc
  rw [parseEntry, htrim, formatEntry, Text.cutAt_singleton h.equals]
  dsimp only
  rw [h.key.1, h.value.1, if_neg h.nonempty]

end Entries

section Baggage

variable {m : Std.TreeMap Text Text} {k v : Text}

theorem carried_of_foldl {pairs : List Text} (hpairs : ∀ pair ∈ pairs, ',' ∉ pair)
    (hm : ∀ k v, m[k]? = some v → CarriedEntry k v) :
    ∀ k v, (pairs.foldl insertEntry m)[k]? = some v → CarriedEntry k v := by
  induction pairs generalizing m with
  | nil => exact hm
  | cons pair pairs ih =>
    obtain ⟨hpair, hpairs⟩ := List.forall_mem_cons.mp hpairs
    refine ih hpairs fun k v hk => ?_
    unfold insertEntry at hk
    split at hk
    · rename_i k' v' hparse
      rw [OrderedMap.getElem?_insert] at hk
      split at hk
      · rename_i heq
        obtain rfl := Option.some.inj hk
        exact heq ▸ carriedEntry_of_parse hpair hparse
      · exact hm k v hk
    · exact hm k v hk

theorem getElem?_foldl_format {entries : List (Text × Text)}
    (hdistinct : entries.Pairwise fun e e' => e.1 ≠ e'.1)
    (hcarried : ∀ e ∈ entries, CarriedEntry e.1 e.2) :
    ((entries.map formatEntry).foldl insertEntry m)[k]? = some v ↔
      (k, v) ∈ entries ∨ m[k]? = some v ∧ ∀ e ∈ entries, e.1 ≠ k := by
  induction entries generalizing m with
  | nil => simp
  | cons e entries ih =>
    obtain ⟨hfirst, hrest⟩ := List.pairwise_cons.mp hdistinct
    obtain ⟨hcarriedFirst, hcarriedRest⟩ := List.forall_mem_cons.mp hcarried
    have hinsert : insertEntry m (formatEntry e) = m.insert e.1 e.2 := by
      rw [insertEntry, parseEntry_format hcarriedFirst]
    rw [List.map_cons, List.foldl_cons, hinsert, ih hrest hcarriedRest, OrderedMap.getElem?_insert,
      List.mem_cons, List.forall_mem_cons]
    by_cases hk : e.1 = k
    · have hnot : ∀ x, (k, x) ∉ entries := fun x hmem => hfirst (k, x) hmem hk
      have hothers : ∀ x ∈ entries, x.1 ≠ k := fun x hx heq => hfirst x hx (hk.trans heq.symm)
      rw [if_pos hk, Option.some.injEq, or_iff_right (hnot v), and_iff_left hothers]
      simp only [hk, ne_eq, not_true_eq_false, false_and, and_false, or_false, hnot v]
      constructor
      · rintro rfl
        exact Prod.ext hk.symm rfl
      · intro heq
        exact (congrArg Prod.snd heq).symm
    · have hne : (k, v) ≠ e := fun heq => hk (congrArg Prod.fst heq).symm
      rw [if_neg hk, or_iff_right hne, and_iff_right hk]

theorem baggage_round_trip (hcarried : ∀ k v, m[k]? = some v → CarriedEntry k v) (k : Text) :
    ((m.toList.map formatEntry).foldl insertEntry ∅)[k]? = m[k]? := by
  have hdistinct : m.toList.Pairwise fun e e' => e.1 ≠ e'.1 := by
    refine m.distinct_keys_toList.imp fun hne heq => hne ?_
    rw [heq]
    exact Std.ReflCmp.compare_self
  have hentries : ∀ e ∈ m.toList, CarriedEntry e.1 e.2 := fun e he =>
    hcarried e.1 e.2 (Std.TreeMap.mem_toList_iff_getElem?_eq_some.mp he)
  apply Option.ext
  intro v
  rw [getElem?_foldl_format hdistinct hentries, Std.TreeMap.getElem?_emptyc,
    Std.TreeMap.mem_toList_iff_getElem?_eq_some]
  simp

end Baggage

/-! ### The round trip -/

/-- Made by a constructor and changed by entries and hops. -/
inductive Reachable (sha256 : Bytes → BytesN 32) : CorrelationContext → Prop
  | new (service seed : Text) : Reachable sha256 (new sha256 service seed)
  | withId {service id : Text} {c : CorrelationContext} (h : withId service id = .ok c) :
    Reachable sha256 c
  | setBaggage {c : CorrelationContext} (h : Reachable sha256 c) (key value : Text) :
    Reachable sha256 (c.setBaggage key value)
  | nextHop {c : CorrelationContext} (h : Reachable sha256 c) (service : Text) :
    Reachable sha256 (c.nextHop service)

/-- The headers are read, with what the context has sent in them. -/
def RoundTrips (c : CorrelationContext) : Prop :=
  ∃ d, fromHeaders c.toHeaders = .ok d ∧ d.correlationId = c.correlationId ∧
    d.originService = c.originService ∧ d.hopCount = c.hopCount ∧
    ∀ k : Text, d.baggage[k]? = c.baggage[k]?

section RoundTrip

variable {sha256 : Bytes → BytesN 32} {c : CorrelationContext}

theorem validateCorrelationId_eq_ok {id : Text} (hlength : id.length = 32)
    (hhex : ∀ c ∈ id, TraceContext.IsHexDigit c) : validateCorrelationId id = .ok () := by
  rw [validateCorrelationId, require_eq_ok,
    Text.byteLen_of_isAscii fun c hc => TraceContext.isAscii_of_isHexDigit (hhex c hc)]
  exact ⟨hlength, TraceContext.all_isLowerHex_iff.mpr hhex⟩

theorem validate_deriveCorrelationId (sha256 : Bytes → BytesN 32) (seed : Text) :
    validateCorrelationId (deriveCorrelationId sha256 seed) = .ok () := by
  apply validateCorrelationId_eq_ok
  · simp [deriveCorrelationId, List.length_flatMap, (sha256 seed.utf8).property]
  · intro c hc
    obtain ⟨b, hb, hc⟩ := List.mem_flatMap.mp hc
    exact TraceContext.isHexDigit_sha256Hex sha256 seed.utf8 c
      (List.mem_flatMap.mpr ⟨b, List.mem_of_mem_take hb, hc⟩)

theorem Reachable.validId (h : Reachable sha256 c) :
    validateCorrelationId c.correlationId = .ok () := by
  induction h with
  | new service seed => exact validate_deriveCorrelationId sha256 seed
  | withId h =>
    obtain ⟨_, hvalid, h⟩ := bind_eq_ok.mp h
    rw [pure_eq_ok] at h
    subst h
    exact hvalid
  | setBaggage _ _ _ ih => exact ih
  | nextHop _ _ ih => exact ih

def received (m : Std.TreeMap Text Text) : Std.TreeMap Text Text :=
  if m.isEmpty then ∅
  else (([','].intercalate (m.toList.map formatEntry)).splitOn ',').foldl insertEntry ∅

theorem readHeader_correlationId (p : Parsed) (value : Text) :
    readHeader p (correlationIdHeader, value) = .ok { p with correlationId := some value } := rfl

theorem readHeader_originService (p : Parsed) (value : Text) :
    readHeader p (originServiceHeader, value) = .ok { p with originService := some value } := by
  have hother : Text.eqIgnoreAsciiCase originServiceHeader correlationIdHeader = false := by decide
  rw [readHeader, hother]
  rfl

theorem readHeader_hopCount (p : Parsed) (n : UInt32) :
    readHeader p (hopCountHeader, Nat.toDigits 10 n.toNat) = .ok { p with hopCount := n } := by
  have hid : Text.eqIgnoreAsciiCase hopCountHeader correlationIdHeader = false := by decide
  have horigin : Text.eqIgnoreAsciiCase hopCountHeader originServiceHeader = false := by decide
  have hself : Text.eqIgnoreAsciiCase hopCountHeader hopCountHeader = true := by decide
  rw [readHeader, hid, horigin, hself, Text.parseU32_toDigits]
  rfl

theorem readHeader_baggage (p : Parsed) (value : Text) :
    readHeader p (baggageHeader, value) =
      .ok { p with baggage := (value.splitOn ',').foldl insertEntry p.baggage } := by
  have hid : Text.eqIgnoreAsciiCase baggageHeader correlationIdHeader = false := by decide
  have horigin : Text.eqIgnoreAsciiCase baggageHeader originServiceHeader = false := by decide
  have hhop : Text.eqIgnoreAsciiCase baggageHeader hopCountHeader = false := by decide
  have hself : Text.eqIgnoreAsciiCase baggageHeader baggageHeader = true := by decide
  rw [readHeader, hid, horigin, hhop, hself]
  rfl

theorem fromHeaders_toHeaders (h : validateCorrelationId c.correlationId = .ok ()) :
    fromHeaders c.toHeaders = .ok
      { correlationId := c.correlationId, originService := c.originService
        currentService := c.originService, hopCount := c.hopCount
        baggage := received c.baggage } := by
  have hread : c.toHeaders.foldlM readHeader ⟨none, none, 0, ∅⟩ =
      .ok ⟨some c.correlationId, some c.originService, c.hopCount, received c.baggage⟩ := by
    rw [toHeaders, List.cons_append, List.cons_append, List.cons_append, List.nil_append,
      List.foldlM_cons, readHeader_correlationId]
    change List.foldlM _ _ _ = _
    rw [List.foldlM_cons, readHeader_originService]
    change List.foldlM _ _ _ = _
    rw [List.foldlM_cons, readHeader_hopCount]
    change List.foldlM _ _ _ = _
    unfold received
    split
    · rfl
    · rw [List.foldlM_cons, readHeader_baggage]
      rfl
  rw [fromHeaders, hread]
  change (validateCorrelationId c.correlationId >>= fun _ => _) = _
  rw [h]
  rfl

theorem carried_of_roundTrips (h : validateCorrelationId c.correlationId = .ok ())
    (hround : RoundTrips c) : ∀ k v : Text, c.baggage[k]? = some v → CarriedEntry k v := by
  obtain ⟨d, hread, -, -, -, hsame⟩ := hround
  rw [fromHeaders_toHeaders h, Except.ok.injEq] at hread
  subst hread
  intro k v hk
  rw [← hsame k] at hk
  change (received c.baggage)[k]? = some v at hk
  unfold received at hk
  split at hk
  · rw [Std.TreeMap.getElem?_emptyc] at hk
    cases hk
  · refine carried_of_foldl (fun pair => Text.not_mem_of_mem_splitOn) (fun k v hk => ?_) k v hk
    rw [Std.TreeMap.getElem?_emptyc] at hk
    cases hk

/-- A reachable context makes the round trip exactly when all entries of its baggage are carried. -/
theorem roundTrips_iff (sha256 : Bytes → BytesN 32) (c : CorrelationContext)
    (h : Reachable sha256 c) :
    RoundTrips c ↔ ∀ k v : Text, c.baggage[k]? = some v → CarriedEntry k v := by
  constructor
  · exact carried_of_roundTrips h.validId
  · intro hcarried
    refine ⟨_, fromHeaders_toHeaders h.validId, rfl, rfl, rfl, fun k => ?_⟩
    change (received c.baggage)[k]? = _
    unfold received
    split
    · rename_i hempty
      rw [Std.TreeMap.getElem?_emptyc, Std.TreeMap.getElem?_of_isEmpty hempty]
    · rename_i hne
      have hlist : c.baggage.toList ≠ [] := by
        intro hnil
        rw [← Std.TreeMap.isEmpty_toList, hnil] at hne
        exact hne rfl
      have hparts : ∀ pair ∈ c.baggage.toList.map formatEntry, ',' ∉ pair := by
        intro pair hpair
        obtain ⟨e, he, rfl⟩ := List.mem_map.mp hpair
        have hentry := hcarried e.1 e.2 (Std.TreeMap.mem_toList_iff_getElem?_eq_some.mp he)
        rw [formatEntry, List.mem_append, List.mem_cons]
        rintro (hkey | hequals | hvalue)
        · exact hentry.key.2 hkey
        · cases hequals
        · exact hentry.value.2 hvalue
      rw [List.splitOn_intercalate ',' hparts (mt List.map_eq_nil_iff.mp hlist)]
      exact baggage_round_trip hcarried k

theorem env_roundTrips : RoundTrips
    ((new (fun _ => BytesN.fill 32 0) "gateway".toList "tx-1".toList).setBaggage "env".toList
      "prod".toList) := by
  refine (roundTrips_iff (fun _ => BytesN.fill 32 0) _ (.setBaggage (.new _ _) _ _)).mpr ?_
  intro k v hk
  change (Std.TreeMap.insert ∅ "env".toList "prod".toList)[k]? = some v at hk
  rw [OrderedMap.getElem?_insert, Std.TreeMap.getElem?_emptyc] at hk
  split at hk
  · rename_i heq
    obtain rfl := Option.some.inj hk
    subst heq
    exact ⟨⟨by decide, by decide⟩, ⟨by decide, by decide⟩, by decide, by decide⟩
  · cases hk

/-- A comma in a value makes another entry of what follows it. -/
theorem comma_splits_value : ∃ c, Reachable (fun _ => BytesN.fill 32 0) c ∧ ¬ RoundTrips c := by
  have hreach := Reachable.setBaggage
    (.new "gateway".toList "tx-1".toList : Reachable (fun _ => BytesN.fill 32 0) _)
    "a".toList "1,b=2".toList
  refine ⟨_, hreach, fun hround => ?_⟩
  have hentry := carried_of_roundTrips hreach.validId hround "a".toList "1,b=2".toList (by
    change (Std.TreeMap.insert ∅ "a".toList "1,b=2".toList)["a".toList]? = _
    rw [OrderedMap.getElem?_insert, if_pos rfl])
  exact absurd hentry.value.2 (by decide)

end RoundTrip

end CorrelationContext

end AnchorKit
