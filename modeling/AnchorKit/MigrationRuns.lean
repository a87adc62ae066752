import AnchorKit.QuoteInvariants

/-!
# Runs of the quote migration

Submissions and other calls may come between the batches of a migration. The invariants say which
quotes the cursor has passed, what became of them, and of which version they are.
-/

namespace AnchorKit

open Fallible

def Call.isMigration : Call → Bool
  | .migrate _ _ => true
  | _ => false

theorem Call.isMigration_iff {c : Call} :
    c.isMigration = true ↔ ∃ version batchSize, c = .migrate version batchSize := by
  constructor
  · intro h
    cases c with
    | migrate version batchSize => exact ⟨version, batchSize, rfl⟩
    | _ => cases h
  · rintro ⟨version, batchSize, rfl⟩
    rfl

inductive VersionStep (s s' : Storage) : Call → Prop
  | migrate {version batchSize : UInt32} {now later rewritten : List UInt64}
      (hbatch : MigrationBatch s s' batchSize now later rewritten) :
      VersionStep s s' (.migrate version batchSize)
  | deploy {admin : Address} (hnew : s.access.schemaVersion = 0)
      (hversion : s'.access.schemaVersion = 1) (hcursor : s'.upgrades.cursor = s.upgrades.cursor) :
      VersionStep s s' (.initializeContract admin)
  | other {c : Call} (hc : c.isMigration = false)
      (hversion : s'.access.schemaVersion = s.access.schemaVersion)
      (hcursor : s'.upgrades.cursor = s.upgrades.cursor) : VersionStep s s' c

theorem version_step {host : Host} {s s' : Storage} {i : Input} (h : step host s i = .ok s') :
    VersionStep s s' i.2 := by
  obtain ⟨env, c⟩ := i
  have hframe := invoke_sameOutside h
  change invoke host env s c = .ok s' at h
  cases c with
  | initializeContract admin =>
    have hnew := initializeContract_unversioned h
    obtain ⟨_, _, rfl⟩ := initializeContract_effects h
    exact .deploy hnew rfl rfl
  | proposeAdminTransfer newAdmin =>
    obtain ⟨_, rfl⟩ := proposeAdminTransfer_effects h
    exact .other rfl rfl rfl
  | acceptAdminTransfer =>
    obtain ⟨_, _, rfl⟩ := acceptAdminTransfer_effects h
    exact .other rfl rfl rfl
  | grantRole grantee role =>
    obtain ⟨_, _, rfl⟩ := grantRole_effects h
    exact .other rfl rfl rfl
  | revokeRole grantee role =>
    obtain ⟨_, _, rfl⟩ := revokeRole_effects h
    exact .other rfl rfl rfl
  | grantCapability grantee cap =>
    obtain ⟨_, _, rfl⟩ := grantCapability_effects h
    exact .other rfl rfl rfl
  | revokeCapability grantee cap =>
    obtain ⟨_, _, rfl⟩ := revokeCapability_effects h
    exact .other rfl rfl rfl
  | upgrade newWasmHash =>
    obtain ⟨_, _, _, _, rfl⟩ := upgrade_effects h
    exact .other rfl rfl rfl
  | migrate version batchSize =>
    obtain ⟨_, _, _, _, hbatch⟩ := migrate_batch h
    exact .migrate hbatch
  | _ =>
    have haccess := hframe.access_eq (by simp [Call.touches])
    have hupgrades := hframe.upgrades_eq (by simp [Call.touches])
    exact .other rfl (by rw [haccess]) (by rw [hupgrades])

/-- A call other than a migration moves no id across the cursor. -/
theorem handled_of_not_migrate {s s' : Storage} {c : Call} (hstep : VersionStep s s' c)
    (hc : c.isMigration = false) (id : UInt64) : Handled s' id ↔ Handled s id := by
  cases hstep with
  | migrate hbatch => cases hc
  | deploy hnew hversion hcursor =>
    unfold Handled
    rw [hversion, hnew, hcursor]
    exact or_congr_left (iff_of_false (by decide) (by decide))
  | other _ hversion hcursor =>
    unfold Handled
    rw [hversion, hcursor]

def HandledUpgraded (s : Storage) : Prop :=
  ∀ anchor id stored, s.quotes.record.get (anchor, id) = some stored → Handled s id →
    schemaV2 ≤ stored.base.schemaVersion

/-- Once the second version is committed, every stored quote is of the second version. -/
def VersionsFollow (s : Storage) : Prop :=
  schemaV2 ≤ s.access.schemaVersion → ∀ anchor id stored,
    s.quotes.record.get (anchor, id) = some stored → schemaV2 ≤ stored.base.schemaVersion

/-- What is known of the quotes and the cursor as long as the version follows. -/
structure VersionsTraced (s : Storage) : Prop where
  wellFormed : s.quotes.WellFormed
  cursor_le : s.upgrades.cursor.getD 0 ≤ s.quotes.count
  version_le : s.access.schemaVersion ≤ schemaV2
  handled : HandledUpgraded s

/-- The call submits no quote to a contract that has committed the second version. -/
def SubmitsInTime (t : Transition) : Prop :=
  schemaV2 ≤ t.pre.access.schemaVersion → t.input.2.submitsQuote = false

theorem version_upgradeStored {stored : StoredQuote}
    (h : schemaV2 ≤ stored.base.schemaVersion) :
    schemaV2 ≤ (upgradeStored stored).base.schemaVersion := by
  rcases stored with legacy | quote
  · exact h
  · have hquote : schemaV2 ≤ quote.schemaVersion := h
    rw [upgradeStored, if_pos hquote]
    exact hquote

theorem handledUpgraded_of_batch {s t : Storage} {batchSize : UInt32}
    {now later rewritten : List UInt64} (hbatch : MigrationBatch s t batchSize now later rewritten)
    (hwf : s.quotes.WellFormed) (h : HandledUpgraded s) : HandledUpgraded t := by
  intro anchor id stored hget hhandled
  rw [hbatch.quotes_eq, QuoteStore.get_upgradeAll] at hget
  obtain ⟨old, hold, hstored⟩ := Option.map_eq_some_iff.mp hget
  obtain ⟨hindex, href⟩ := hwf.listed anchor id (KeyedStore.has_iff.mpr ⟨old, hold⟩)
  by_cases hbefore : Handled s id
  · have hversion := h anchor id old hold hbefore
    split at hstored
    · exact hstored ▸ version_upgradeStored hversion
    · exact hstored ▸ hversion
  · have hnow : id ∈ now :=
      (hbatch.mem_now_iff hwf.ascending).mpr ⟨hindex, hbefore, hhandled⟩
    rw [if_pos ⟨hnow, href⟩] at hstored
    subst hstored
    rcases old with legacy | quote
    · exact absurd ⟨anchor, legacy, href, hold⟩ (hbatch.readable id hnow)
    · obtain ⟨upgraded, hupgraded⟩ := upgradeStored_current quote
      rw [hupgraded]
      exact version_of_upgradeStored hupgraded

theorem version_le_of_step {s s' : Storage} {c : Call} (hstep : VersionStep s s' c)
    (h : s.access.schemaVersion ≤ schemaV2) : s'.access.schemaVersion ≤ schemaV2 := by
  cases hstep with
  | migrate hbatch =>
    rcases hbatch.outcome with ⟨_, _, hversion⟩ | ⟨_, hversion, _⟩
    · rw [hversion]
      exact UInt32.le_refl _
    · rw [hversion]
      decide
  | deploy hnew hversion hcursor =>
    rw [hversion]
    decide
  | other hc hversion hcursor => rwa [hversion]

theorem count_le_of_step {st st' : QuoteStore} {c : Call} (hstep : QuoteStep st c st') :
    st.count ≤ st'.count := by
  cases hstep with
  | keep hc => exact UInt64.le_refl _
  | @submit _ quote hc hid hversion =>
    change st.count ≤ quote.quoteId
    rw [UInt64.le_iff_toNat_le, hid]
    omega
  | invalidate hhas => exact UInt64.le_refl _
  | migrate => exact UInt64.le_refl _

theorem cursor_le_of_step {s s' : Storage} {c : Call} (hstep : VersionStep s s' c)
    (hquotes : QuoteStep s.quotes c s'.quotes) (hwf : s.quotes.WellFormed)
    (h : s.upgrades.cursor.getD 0 ≤ s.quotes.count) :
    s'.upgrades.cursor.getD 0 ≤ s'.quotes.count := by
  cases hstep with
  | migrate hbatch =>
    rw [hbatch.quotes_eq]
    change _ ≤ s.quotes.count
    rcases hbatch.outcome with ⟨_, hcursor, _⟩ | ⟨_, _, _, _, before, c, rfl, hcursor⟩
    · rw [hcursor]
      exact UInt64.zero_le
    · rw [hcursor, Option.getD_some]
      have hmem : c ∈ s.quotes.index := ((hbatch.mem_now_iff hwf.ascending).mp (by simp)).1
      exact (hwf.bounds c hmem).2
  | deploy hnew hversion hcursor =>
    rw [hcursor]
    exact UInt64.le_trans h (count_le_of_step hquotes)
  | other hc hversion hcursor =>
    rw [hcursor]
    exact UInt64.le_trans h (count_le_of_step hquotes)

theorem handledUpgraded_of_other {host : Host} {t : Transition}
    (ht : step host t.pre t.input = .ok t.post) (h : VersionsTraced t.pre)
    (hgood : SubmitsInTime t)
    (hother : t.input.2.isMigration = false) : HandledUpgraded t.post := by
  intro anchor id stored hget hhandled
  rw [handled_of_not_migrate (version_step ht) hother] at hhandled
  have hquotes := quote_step ht
  generalize hc : t.input.2 = c at hquotes
  generalize t.post.quotes = st at hquotes hget
  cases hquotes with
  | keep _ => exact h.handled anchor id stored hget hhandled
  | invalidate _ => exact h.handled anchor id stored hget hhandled
  | migrate =>
    rw [hc] at hother
    cases hother
  | submit hsubmits hid hversion =>
    rcases KeyedStore.get_set_cases hget with ⟨hkey, rfl⟩ | hold
    · obtain ⟨rfl, rfl⟩ := Prod.mk.inj hkey
      exfalso
      rcases hhandled with hv2 | hle
      · have hnone := hgood (by rw [hv2]; exact UInt32.le_refl _)
        rw [hc, hsubmits] at hnone
        cases hnone
      · have hcount := UInt64.le_iff_toNat_le.mp (UInt64.le_trans hle h.cursor_le)
        omega
    · exact h.handled anchor id stored hold hhandled

theorem VersionsTraced.of_step {host : Host} {t : Transition}
    (ht : step host t.pre t.input = .ok t.post) (h : VersionsTraced t.pre)
    (hgood : SubmitsInTime t) : VersionsTraced t.post where
  wellFormed := wellFormed_of_step (quote_step ht) h.wellFormed
  cursor_le := cursor_le_of_step (version_step ht) (quote_step ht) h.wellFormed h.cursor_le
  version_le := version_le_of_step (version_step ht) h.version_le
  handled := by
    cases hmigrates : t.input.2.isMigration with
    | true =>
      obtain ⟨version, batchSize, hc⟩ := Call.isMigration_iff.mp hmigrates
      have hstep := version_step ht
      rw [hc] at hstep
      cases hstep with
      | migrate hbatch => exact handledUpgraded_of_batch hbatch h.wellFormed h.handled
      | other hother => cases hother
    | false => exact handledUpgraded_of_other ht h hgood hmigrates

theorem VersionsTraced.follow {s : Storage} (h : VersionsTraced s) : VersionsFollow s := by
  intro hversion anchor id stored hget
  apply h.handled anchor id stored hget
  exact Or.inl (UInt32.le_antisymm h.version_le hversion)

/-- A quote that is submitted too late is of the first version. -/
theorem submitsInTime_of_follow {host : Host} {t : Transition}
    (ht : step host t.pre t.input = .ok t.post) (hpost : VersionsFollow t.post) :
    SubmitsInTime t := by
  intro hversion
  cases hsubmits : t.input.2.submitsQuote with
  | false => rfl
  | true =>
    exfalso
    have hversions := version_step ht
    have hquotes := quote_step ht
    generalize t.input.2 = c at hsubmits hversions hquotes
    generalize hst : t.post.quotes = st at hquotes
    cases hquotes with
    | keep hc =>
      rw [hc] at hsubmits
      cases hsubmits
    | invalidate _ => cases hsubmits
    | migrate => cases hsubmits
    | submit hc hid hv1 =>
      have hkept : schemaV2 ≤ t.post.access.schemaVersion := by
        cases hversions with
        | migrate _ => cases hsubmits
        | deploy _ _ _ => cases hsubmits
        | other _ hsame _ => rwa [hsame]
      have hnew := hpost hkept _ _ _ (by rw [hst]; exact KeyedStore.get_set_self _ _ _)
      rw [show (StoredQuote.current _).base.schemaVersion = _ from hv1] at hnew
      exact absurd hnew (by decide)

/-- At every point of a run the quotes follow the committed version, exactly when the run submits
no quote once the second version is committed. -/
theorem versionsFollow_iff (host : Host) (is : List Input) :
    (∀ js, js <+: is → VersionsFollow (run host js)) ↔ ∀ t ∈ history host is, SubmitsInTime t := by
  refine Machine.forall_prefix_invariant_iff (step host) (fun _ s => VersionsFollow s)
    (fun _ s => VersionsTraced s) SubmitsInTime (s := .empty) (fun h => absurd h (by decide))
    ⟨QuoteStore.wellFormed_empty, UInt64.le_refl _, by decide, nofun⟩ ?_ ?_ is
  · intro past t ht htraced _
    constructor
    · intro hpost
      exact submitsInTime_of_follow ht hpost
    · intro hgood
      exact (htraced.of_step ht hgood).follow
  · intro past t ht htraced _ hgood
    exact htraced.of_step ht hgood

/-- With the second version committed, a new quote is of the first one. -/
theorem late_quote_of_first_version :
    ¬ ∀ js, js <+: [Demo.deploy, Demo.onLedger 1 (.migrate 2 1),
        Demo.onLedger 1 (.submitQuote Demo.alice Demo.terms)] →
      VersionsFollow (run Demo.host js) := by
  intro h
  have hfollow := h _ List.prefix_rfl (by decide) Demo.alice 1 _ rfl
  revert hfollow
  decide

theorem not_handled_of_fresh {s : Storage} {id : UInt64} (hwf : s.quotes.WellFormed)
    (hv1 : s.access.schemaVersion = schemaV1) (hcursor : s.upgrades.cursor = none)
    (hid : id ∈ s.quotes.index) : ¬ Handled s id := by
  rw [handled_iff_of_v1 hv1, hcursor]
  exact UInt64.not_le.mpr (hwf.bounds id hid).1

/-- A quote that was stored before a migration began, as it is found while the migration goes
on and afterwards. -/
structure QuoteTraced (anchor : Address) (id : UInt64) (quote : Quote) (s : Storage) : Prop where
  wellFormed : s.quotes.WellFormed
  stored : s.quotes.record.get (anchor, id) =
    some (if Handled s id then upgradeStored (.current quote) else .current quote)

section QuoteTraced

variable {host : Host} {s s' : Storage} {anchor : Address} {id : UInt64} {quote : Quote}

theorem QuoteTraced.has (h : QuoteTraced anchor id quote s) :
    s.quotes.record.has (anchor, id) = true := KeyedStore.has_iff.mpr ⟨_, h.stored⟩

theorem quoteTraced_start (hwf : s.quotes.WellFormed) (hv1 : s.access.schemaVersion = schemaV1)
    (hcursor : s.upgrades.cursor = none) (hquote : getQuote s anchor id = .ok quote) :
    QuoteTraced anchor id quote s := by
  have hget := getQuote_eq_ok.mp hquote
  have hindex := (hwf.listed anchor id (KeyedStore.has_iff.mpr ⟨_, hget⟩)).1
  have hunhandled := not_handled_of_fresh hwf hv1 hcursor hindex
  exact ⟨hwf, by rw [hget, if_neg hunhandled]⟩

theorem QuoteTraced.of_batch {batchSize : UInt32} {now later rewritten : List UInt64}
    (hbatch : MigrationBatch s s' batchSize now later rewritten)
    (h : QuoteTraced anchor id quote s) :
    s'.quotes.record.get (anchor, id) =
      some (if Handled s' id then upgradeStored (.current quote) else .current quote) := by
  obtain ⟨hindex, href⟩ := h.wellFormed.listed anchor id h.has
  have hmem : id ∈ now ↔ id ∈ s.quotes.index ∧ ¬ Handled s id ∧ Handled s' id :=
    hbatch.mem_now_iff h.wellFormed.ascending
  rw [hbatch.quotes_eq, QuoteStore.get_upgradeAll, h.stored, Option.map_some]
  by_cases hbefore : Handled s id
  · have hnow : id ∉ now := fun hnow => (hmem.mp hnow).2.1 hbefore
    simp [hbefore, hbatch.handled_mono hbefore, hnow]
  · by_cases hafter : Handled s' id
    · simp [hbefore, hafter, hmem.mpr ⟨hindex, hbefore, hafter⟩, href]
    · have hnow : id ∉ now := fun hnow => hafter (hmem.mp hnow).2.2
      simp [hbefore, hafter, hnow]

/-- Calls other than a migration leave the record alone, since new quotes get new ids. -/
theorem QuoteTraced.get_of_other {c : Call} (hquotes : QuoteStep s.quotes c s'.quotes)
    (hother : c.isMigration = false) (h : QuoteTraced anchor id quote s) :
    s'.quotes.record.get (anchor, id) = s.quotes.record.get (anchor, id) := by
  generalize s'.quotes = st at hquotes
  cases hquotes with
  | keep _ => rfl
  | invalidate _ => rfl
  | migrate => cases hother
  | @submit _ new hsubmits hid hversion =>
    apply KeyedStore.get_set_of_ne
    intro hkey
    have hle := UInt64.le_iff_toNat_le.mp (h.wellFormed.le_count h.has)
    rw [(Prod.mk.inj hkey).2] at hle
    omega

theorem QuoteTraced.of_step {i : Input} (hstep : step host s i = .ok s')
    (h : QuoteTraced anchor id quote s) : QuoteTraced anchor id quote s' := by
  have hversions := version_step hstep
  have hquotes := quote_step hstep
  refine ⟨wellFormed_of_step hquotes h.wellFormed, ?_⟩
  cases hmigrates : i.2.isMigration with
  | true =>
    obtain ⟨version, batchSize, hc⟩ := Call.isMigration_iff.mp hmigrates
    rw [hc] at hversions
    cases hversions with
    | migrate hbatch => exact h.of_batch hbatch
    | other hother => cases hother
  | false =>
    rw [h.get_of_other hquotes hmigrates, h.stored]
    simp only [handled_of_not_migrate hversions hmigrates]

end QuoteTraced

/-- Across a migration that completes, with any other calls in between, a quote of the first
version keeps every field but the version exactly when it carries no routing reason. -/
theorem quote_preserved_iff (host : Host) {s : Storage} (hwf : s.quotes.WellFormed)
    (hv1 : s.access.schemaVersion = schemaV1) (hcursor : s.upgrades.cursor = none)
    (is : List Input) (hdone : (Machine.run (step host) s is).access.schemaVersion = schemaV2)
    {anchor : Address} {id : UInt64} {quote : Quote} (hquote : getQuote s anchor id = .ok quote)
    (hversion : quote.schemaVersion = schemaV1) :
    (∃ migrated, getQuote (Machine.run (step host) s is) anchor id = .ok migrated ∧
      { migrated with schemaVersion := quote.schemaVersion } = quote) ↔
        quote.routingReason = none := by
  have htraced := Machine.invariant (step host) (QuoteTraced anchor id quote)
    (quoteTraced_start hwf hv1 hcursor hquote) (fun _ _ _ hstep hpre => hpre.of_step hstep) is
  have hhandled : Handled (Machine.run (step host) s is) id := Or.inl hdone
  have hold : ¬ schemaV2 ≤ quote.schemaVersion := by
    rw [hversion]
    decide
  have hstored := htraced.stored
  rw [if_pos hhandled, upgradeStored, if_neg hold] at hstored
  have hread := getQuote_eq_ok.mpr hstored
  constructor
  · rintro ⟨migrated, hmigrated, hsame⟩
    rw [hread] at hmigrated
    obtain rfl := Except.ok.inj hmigrated
    exact (congrArg Quote.routingReason hsame).symm
  · intro hreason
    exact ⟨_, hread, by simp [← hreason]⟩

namespace Demo

def migrateAll : Input := onLedger 1 (.migrate 2 100)

end Demo

theorem plain_offer_preserved :
    ∃ migrated, getQuote (Machine.run (step Demo.host) (run Demo.host (Demo.offered none))
        [Demo.migrateAll]) Demo.alice 1 = .ok migrated ∧
      { migrated with schemaVersion := schemaV1 } = Demo.offer none := by
  have hoffered : getQuote (run Demo.host (Demo.offered none)) Demo.alice 1
      = .ok (Demo.offer none) := by decide
  exact (quote_preserved_iff Demo.host (wellFormed_run Demo.host (Demo.offered none)) (by decide)
    (by decide) [Demo.migrateAll] (by decide) hoffered rfl).mpr rfl

/-- A quote routed for a referral is no longer so after the migration. -/
theorem referral_lost_in_migration :
    ¬ ∀ quote, getQuote (run Demo.host (Demo.offered (some "referral"))) Demo.alice 1 = .ok quote →
      ∃ migrated, getQuote (Machine.run (step Demo.host)
          (run Demo.host (Demo.offered (some "referral"))) [Demo.migrateAll]) Demo.alice 1
            = .ok migrated ∧ { migrated with schemaVersion := quote.schemaVersion } = quote := by
  intro h
  obtain ⟨migrated, hread, hsame⟩ := h (Demo.offer (some "referral")) (by decide)
  have hreason : migrated.routingReason = some "referral" := congrArg Quote.routingReason hsame
  have hlost : getQuote (Machine.run (step Demo.host)
      (run Demo.host (Demo.offered (some "referral"))) [Demo.migrateAll]) Demo.alice 1
        = .ok { Demo.offer none with schemaVersion := schemaV2 } := by decide
  rw [hlost] at hread
  obtain rfl := Except.ok.inj hread
  cases hreason

end AnchorKit
