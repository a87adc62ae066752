import AnchorKit.Compliance
import AnchorKit.EntryPoints
import AnchorKit.Library.KeyedList
import AnchorKit.Library.Numbered

/-!
# Runs over the registers

What a run leaves of two registers that only the admin writes: the directory of clusters and the
logs of compliance checks.
-/

namespace AnchorKit

open Fallible Machine
open KeyedList (lookup Represents)
open Roster (pushIfAbsent)

/-!
## The directory of anchor clusters

What can be listed and read of the clusters is an insertion-ordered directory, computed from the
committed calls of the run alone: a creation appends, an update replaces the anchors in place and a
deletion takes the cluster out, after which its id may be used again.
-/

/-- The clusters after a committed call, in the order in which they were created. -/
def directoryAfter (clusters : List AnchorCluster) (t : ContractState.Transition) :
    List AnchorCluster :=
  match t.input.2 with
  | .createAnchorCluster clusterId name anchors =>
    clusters ++ [{ clusterId, name, anchors, createdAt := t.input.1.timestamp }]
  | .deleteAnchorCluster clusterId => clusters.filter fun c => c.clusterId ≠ clusterId
  | .updateAnchorClusterAnchors clusterId anchors =>
    clusters.map fun c => if c.clusterId = clusterId then { c with anchors } else c
  | _ => clusters

def directory (past : List ContractState.Transition) : List AnchorCluster :=
  past.foldl directoryAfter []

def CreatesCluster (clusterId : String) (t : ContractState.Transition) : Prop :=
  ∃ name anchors, t.input.2 = .createAnchorCluster clusterId name anchors

def DeletesCluster (clusterId : String) (t : ContractState.Transition) : Prop :=
  t.input.2 = .deleteAnchorCluster clusterId

/-- What a run leaves of the clusters, and which calls it allows next. -/
structure ClusterDirectory (past : List ContractState.Transition) (s : ContractState) : Prop where
  listed : listAnchorClusters s.clusters = (directory past).map AnchorCluster.clusterId
  distinct : (listAnchorClusters s.clusters).Nodup
  read : ∀ clusterId, getAnchorCluster s.clusters clusterId =
    expect (lookup AnchorCluster.clusterId clusterId (directory past)) (.withError .validationError)
  since : ∀ clusterId, clusterId ∈ listAnchorClusters s.clusters ↔
    HoldsSince (CreatesCluster clusterId) (DeletesCluster clusterId) past
  creates : ∀ env clusterId name anchors,
    Succeeds (createAnchorCluster env s.core s.clusters clusterId name anchors) ↔
      requireAdmin env s.core = .ok () ∧ clusterId ∉ listAnchorClusters s.clusters
  deletes : ∀ env clusterId, Succeeds (deleteAnchorCluster env s.core s.clusters clusterId) ↔
    requireAdmin env s.core = .ok () ∧ clusterId ∈ listAnchorClusters s.clusters
  updates : ∀ env clusterId anchors,
    Succeeds (updateAnchorClusterAnchors env s.core s.clusters clusterId anchors) ↔
      requireAdmin env s.core = .ok () ∧ clusterId ∈ listAnchorClusters s.clusters

theorem directory_snoc (past : List ContractState.Transition) (t : ContractState.Transition) :
    directory (past ++ [t]) = directoryAfter (directory past) t := by
  rw [directory, List.foldl_append]
  rfl

abbrev ClusterStore.Holds (st : ClusterStore) (clusters : List AnchorCluster) : Prop :=
  Represents AnchorCluster.clusterId st.cluster st.list clusters

section Calls

variable {env : Env} {s : Storage} {st st' : ClusterStore} {clusters : List AnchorCluster}
  {clusterId name : String} {anchors : List Address}

theorem createAnchorCluster_holds
    (h : createAnchorCluster env s st clusterId name anchors = .ok st') (hst : st.Holds clusters) :
    st'.Holds (clusters ++ [{ clusterId, name, anchors, createdAt := env.timestamp }]) := by
  simp only [createAnchorCluster, bind_eq_ok, require_eq_ok, pure_eq_ok] at h
  obtain ⟨_, _, _, hfree, rfl⟩ := h
  rw [hst.has_eq, decide_eq_false_iff_not] at hfree
  have hpush : pushIfAbsent st.list clusterId = st.list ++ [clusterId] := if_neg hfree
  have hnew : lookup AnchorCluster.clusterId clusterId clusters = none := by
    rw [KeyedList.lookup_eq_none, ← hst.keys]
    exact hfree
  have hpushed := hst.push (v := { clusterId, name, anchors, createdAt := env.timestamp }) hnew
  rwa [← hpush] at hpushed

theorem deleteAnchorCluster_holds (h : deleteAnchorCluster env s st clusterId = .ok st')
    (hst : st.Holds clusters) :
    st'.Holds (clusters.filter fun c => c.clusterId ≠ clusterId) := by
  simp only [deleteAnchorCluster, bind_eq_ok, require_eq_ok, pure_eq_ok] at h
  obtain ⟨_, _, _, _, rfl⟩ := h
  exact hst.remove clusterId

theorem updateAnchorClusterAnchors_holds
    (h : updateAnchorClusterAnchors env s st clusterId anchors = .ok st')
    (hst : st.Holds clusters) :
    st'.Holds (clusters.map fun c =>
      if c.clusterId = clusterId then { c with anchors } else c) := by
  simp only [updateAnchorClusterAnchors, bind_eq_ok, expect_eq_ok, pure_eq_ok] at h
  obtain ⟨_, _, cluster, hget, rfl⟩ := h
  rw [hst.get] at hget
  have hid := KeyedList.key_of_lookup hget
  have hwritten := hst.rewrite hget (v := { cluster with anchors }) hid
  rwa [KeyedList.rewrite_eq_map hst.nodup hget (f := fun c => { c with anchors })] at hwritten

theorem succeeds_createAnchorCluster (hst : st.Holds clusters) :
    Succeeds (createAnchorCluster env s st clusterId name anchors) ↔
      requireAdmin env s = .ok () ∧ clusterId ∉ st.list := by
  rw [createAnchorCluster, Succeeds]
  simp only [bind_eq_ok, require_eq_ok, pure_eq_ok, hst.has_eq, decide_eq_false_iff_not]
  constructor
  · rintro ⟨_, _, hadmin, _, hfree, _⟩
    exact ⟨hadmin, hfree⟩
  · rintro ⟨hadmin, hfree⟩
    exact ⟨_, (), hadmin, (), hfree, rfl⟩

theorem succeeds_deleteAnchorCluster (hst : st.Holds clusters) :
    Succeeds (deleteAnchorCluster env s st clusterId) ↔
      requireAdmin env s = .ok () ∧ clusterId ∈ st.list := by
  rw [deleteAnchorCluster, Succeeds]
  simp only [bind_eq_ok, require_eq_ok, pure_eq_ok, hst.has_eq, decide_eq_true_eq]
  constructor
  · rintro ⟨_, _, hadmin, _, hused, _⟩
    exact ⟨hadmin, hused⟩
  · rintro ⟨hadmin, hused⟩
    exact ⟨_, (), hadmin, (), hused, rfl⟩

theorem succeeds_updateAnchorClusterAnchors (hst : st.Holds clusters) :
    Succeeds (updateAnchorClusterAnchors env s st clusterId anchors) ↔
      requireAdmin env s = .ok () ∧ clusterId ∈ st.list := by
  have hhas : clusterId ∈ st.list ↔ ∃ cluster, st.cluster.get clusterId = some cluster := by
    rw [← KeyedStore.has_iff, hst.has_eq, decide_eq_true_eq]
  rw [updateAnchorClusterAnchors, Succeeds, hhas]
  simp only [bind_eq_ok, expect_eq_ok, pure_eq_ok]
  constructor
  · rintro ⟨_, _, hadmin, cluster, hget, _⟩
    exact ⟨hadmin, cluster, hget⟩
  · rintro ⟨hadmin, cluster, hget⟩
    exact ⟨_, (), hadmin, cluster, hget, rfl⟩

end Calls

section Runs

variable {host : Host} {sha256 : Bytes → BytesN 32} {t : ContractState.Transition}

/-- One committed call, of whatever kind, does to the clusters what it does to the directory. -/
theorem directory_holds_step (h : ContractState.step host sha256 t.pre t.input = .ok t.post)
    {clusters : List AnchorCluster} (hpre : t.pre.clusters.Holds clusters) :
    t.post.clusters.Holds (directoryAfter clusters t) := by
  obtain ⟨pre, ⟨env, e⟩, post⟩ := t
  have hsame := ContractState.enter_sameOutside h
  cases e with
  | createAnchorCluster clusterId name anchors =>
    simp only [ContractState.step, ContractState.enter, bind_eq_ok, pure_eq_ok] at h
    obtain ⟨_, hcreate, rfl⟩ := h
    exact createAnchorCluster_holds hcreate hpre
  | deleteAnchorCluster clusterId =>
    simp only [ContractState.step, ContractState.enter, bind_eq_ok, pure_eq_ok] at h
    obtain ⟨_, hdelete, rfl⟩ := h
    exact deleteAnchorCluster_holds hdelete hpre
  | updateAnchorClusterAnchors clusterId anchors =>
    simp only [ContractState.step, ContractState.enter, bind_eq_ok, pure_eq_ok] at h
    obtain ⟨_, hupdate, rfl⟩ := h
    exact updateAnchorClusterAnchors_holds hupdate hpre
  | _ =>
    -- every other entry point writes other parts of the state
    have hclusters : post.clusters = pre.clusters :=
      hsame .clusters (by simp [ContractState.writes])
    rw [hclusters]
    exact hpre

theorem directory_holds_run (host : Host) (sha256 : Bytes → BytesN 32)
    (is : List ContractState.Input) :
    (ContractState.run host sha256 is).clusters.Holds
      (directory (ContractState.history host sha256 is)) := by
  refine Machine.history_invariant (ContractState.step host sha256)
    (fun past s => s.clusters.Holds (directory past)) (fun _ => True) Represents.empty ?_ is
    fun _ _ => trivial
  intro past t ht hpre _
  rw [directory_snoc]
  exact directory_holds_step ht hpre

/-- Which ids the directory lists, from what happened to them last. -/
theorem mem_directory_iff (past : List ContractState.Transition) (clusterId : String) :
    clusterId ∈ (directory past).map AnchorCluster.clusterId ↔
      HoldsSince (CreatesCluster clusterId) (DeletesCluster clusterId) past := by
  induction past using List.reverseRecOn with
  | nil => exact iff_of_false List.not_mem_nil not_holdsSince_nil
  | append_singleton past t ih =>
    rw [holdsSince_snoc, ← ih, directory_snoc]
    obtain ⟨pre, ⟨env, e⟩, post⟩ := t
    cases e with
    | createAnchorCluster created name anchors =>
      simp [directoryAfter, CreatesCluster, DeletesCluster, or_comm, eq_comm]
    | deleteAnchorCluster deleted =>
      simp only [directoryAfter, CreatesCluster, DeletesCluster, List.mem_map, List.mem_filter]
      constructor
      · rintro ⟨c, ⟨hc, hne⟩, rfl⟩
        refine Or.inr ⟨⟨c, hc, rfl⟩, fun hdel => of_decide_eq_true hne ?_⟩
        exact (EntryPoint.deleteAnchorCluster.inj hdel).symm
      · rintro (⟨_, _, hcreate⟩ | ⟨⟨c, hc, rfl⟩, hne⟩)
        · cases hcreate
        · exact ⟨c, ⟨hc, decide_eq_true fun heq => hne (by rw [heq])⟩, rfl⟩
    | updateAnchorClusterAnchors updated anchors =>
      have hids : (directoryAfter (directory past)
          ⟨pre, (env, .updateAnchorClusterAnchors updated anchors), post⟩).map
            AnchorCluster.clusterId = (directory past).map AnchorCluster.clusterId := by
        rw [directoryAfter, List.map_map]
        refine List.map_congr_left fun c _ => ?_
        simp only [Function.comp_apply]
        split <;> rfl
      rw [hids]
      simp [CreatesCluster, DeletesCluster]
    | _ => simp [directoryAfter, CreatesCluster, DeletesCluster]

/-- The clusters after any run of the contract. -/
theorem clusters_run (host : Host) (sha256 : Bytes → BytesN 32) (is : List ContractState.Input) :
    ClusterDirectory (ContractState.history host sha256 is) (ContractState.run host sha256 is) := by
  have hst := directory_holds_run host sha256 is
  constructor
  · exact hst.keys
  · rw [listAnchorClusters, hst.keys]
    exact hst.nodup
  · intro clusterId
    rw [getAnchorCluster, hst.get]
  · intro clusterId
    rw [listAnchorClusters, hst.keys, mem_directory_iff]
  · exact fun env clusterId name anchors => succeeds_createAnchorCluster hst
  · exact fun env clusterId => succeeds_deleteAnchorCluster hst
  · exact fun env clusterId anchors => succeeds_updateAnchorClusterAnchors hst

end Runs

/-!
## The history of compliance checks

The checks of a subject and a type are logged one behind the other, beside the latest of them, on
which the gate on compliance looks. Only the admin adds to the log, and nothing leaves it.
-/

open Roster (pushIfAbsent mem_pushIfAbsent nodup_pushIfAbsent)

def getLatestComplianceCheck (s : Storage) (subject : Address) (checkType : String) :
    Option ComplianceCheck :=
  s.compliance.check.get (subject, checkType)

/-- The newest records, the most recent one last. -/
def getComplianceCheckHistory (s : Storage) (subject : Address) (checkType : String)
    (limit : UInt64) : List ComplianceCheck :=
  let total := (s.compliance.historyCount.get (subject, checkType)).getD 0
  let effectiveLimit := min limit 50
  let start := if effectiveLimit < total then total - effectiveLimit else 0
  (List.range' start.toNat (total.toNat - start.toNat)).filterMap fun i =>
    s.compliance.history.get (subject, checkType, UInt64.ofNat i)

def listSubjectComplianceChecks (s : Storage) (subject : Address) : List String :=
  (s.compliance.index.get subject).getD []

def checkRecorded (t : ContractState.Transition) : Option ComplianceCheck :=
  match t.input.2 with
  | .core (.recordComplianceCheck subject checkType passed score) =>
    some { subject, checkType, result := if passed then 1 else 0, score,
           timestamp := t.input.1.timestamp }
  | _ => none

def checksOf (subject : Address) (checkType : String) (past : List ContractState.Transition) :
    List ComplianceCheck :=
  (past.filterMap checkRecorded).filter fun c => c.subject = subject ∧ c.checkType = checkType

structure ComplianceTold (past : List ContractState.Transition) (s : Storage) : Prop where
  latest : ∀ subject checkType, getLatestComplianceCheck s subject checkType =
    (checksOf subject checkType past).getLast?
  history : ∀ subject checkType limit, getComplianceCheckHistory s subject checkType limit =
    (checksOf subject checkType past).drop
      ((checksOf subject checkType past).length - min limit.toNat 50)
  listed : ∀ subject checkType, checkType ∈ listSubjectComplianceChecks s subject ↔
    checksOf subject checkType past ≠ []
  distinct : ∀ subject, (listSubjectComplianceChecks s subject).Nodup
  gate : ∀ subject, checkCompliance s subject true = .ok () ↔
    ∃ c, (checksOf subject "kyc" past).getLast? = some c ∧ c.result = 1
  authorized : ∀ t ∈ past, (checkRecorded t).isSome = true →
    ∃ admin, t.pre.core.access.admin = some admin ∧ admin ∈ t.input.1.authorized

def logOf (st : ComplianceStore) (subject : Address) (checkType : String) (i : UInt64) :
    Option ComplianceCheck :=
  st.history.get (subject, checkType, i)

structure HoldsChecks (past : List ContractState.Transition) (st : ComplianceStore) : Prop where
  latest : ∀ subject checkType, st.check.get (subject, checkType) =
    (checksOf subject checkType past).getLast?
  log : ∀ subject checkType, NumberedLog.Holds (logOf st subject checkType)
    ((st.historyCount.get (subject, checkType)).getD 0) (checksOf subject checkType past)
  listed : ∀ subject checkType, checkType ∈ (st.index.get subject).getD [] ↔
    checksOf subject checkType past ≠ []
  distinct : ∀ subject, ((st.index.get subject).getD []).Nodup

section Calls

variable {env : Env} {s s' : Storage} {st st' : ComplianceStore}
  {past : List ContractState.Transition} {t : ContractState.Transition} {record : ComplianceCheck}
  {subject : Address} {checkType : String}

theorem checksOf_snoc_of_none (h : checkRecorded t = none) :
    checksOf subject checkType (past ++ [t]) = checksOf subject checkType past := by
  rw [checksOf, List.filterMap_append, List.filterMap_cons_none h, List.filterMap_nil,
    List.append_nil]
  rfl

theorem checksOf_snoc_of_some (h : checkRecorded t = some record) :
    checksOf subject checkType (past ++ [t]) =
      if (subject, checkType) = (record.subject, record.checkType) then
        checksOf subject checkType past ++ [record]
      else checksOf subject checkType past := by
  rw [checksOf, List.filterMap_append, List.filterMap_cons_some h, List.filterMap_nil,
    List.filter_append, List.filter_singleton]
  by_cases hkey : (subject, checkType) = (record.subject, record.checkType)
  · obtain ⟨rfl, rfl⟩ := Prod.mk.inj hkey
    rw [if_pos rfl, decide_eq_true ⟨rfl, rfl⟩]
    rfl
  · have hother : ¬ (record.subject = subject ∧ record.checkType = checkType) := by
      rintro ⟨rfl, rfl⟩
      exact hkey rfl
    rw [if_neg hkey, decide_eq_false hother]
    exact List.append_nil _

structure RecordsCheck (record : ComplianceCheck) (st st' : ComplianceStore) : Prop where
  check : st'.check = st.check.set (record.subject, record.checkType) record
  counted : ((st.historyCount.get (record.subject, record.checkType)).getD 0).toNat + 1 =
    ((st'.historyCount.get (record.subject, record.checkType)).getD 0).toNat
  count_kept : ∀ key, key ≠ (record.subject, record.checkType) →
    st'.historyCount.get key = st.historyCount.get key
  log : st'.history = st.history.set (record.subject, record.checkType,
    (st.historyCount.get (record.subject, record.checkType)).getD 0) record
  index : st'.index = st.index.set record.subject
    (pushIfAbsent ((st.index.get record.subject).getD []) record.checkType)

theorem recordComplianceCheck_effects {passed : Bool} {score : Option UInt32}
    (h : recordComplianceCheck env s subject checkType passed score = .ok s') :
    requireAdmin env s = .ok () ∧
      RecordsCheck { subject, checkType, result := if passed then 1 else 0, score,
                     timestamp := env.timestamp } s.compliance s'.compliance := by
  simp only [recordComplianceCheck, appendComplianceHistory, bind_eq_ok, add64_eq_ok,
    pure_eq_ok] at h
  obtain ⟨_, hadmin, _, ⟨count, hcount, rfl⟩, rfl⟩ := h
  refine ⟨hadmin, rfl, ?_, ?_, rfl, rfl⟩
  · rw [Storage.publish, KeyedStore.get_set_self]
    exact hcount
  · exact fun key hkey => KeyedStore.get_set_of_ne _ _ hkey

theorem HoldsChecks.of_recorded (hpre : HoldsChecks past st) (h : RecordsCheck record st st')
    (hrecorded : checkRecorded t = some record) : HoldsChecks (past ++ [t]) st' := by
  constructor
  · intro subject checkType
    rw [h.check, KeyedStore.get_set, checksOf_snoc_of_some hrecorded]
    split
    · rw [List.getLast?_concat]
    · exact hpre.latest subject checkType
  · intro subject checkType
    rw [checksOf_snoc_of_some hrecorded]
    by_cases hkey : (subject, checkType) = (record.subject, record.checkType)
    · obtain ⟨rfl, rfl⟩ := Prod.mk.inj hkey
      rw [if_pos rfl]
      refine (hpre.log _ _).push h.counted fun i => ?_
      rw [logOf, logOf, h.log, KeyedStore.get_set]
      simp only [Prod.mk.injEq, true_and]
    · rw [if_neg hkey, h.count_kept _ hkey]
      have hlog : logOf st' subject checkType = logOf st subject checkType := by
        funext i
        rw [logOf, logOf, h.log]
        refine KeyedStore.get_set_of_ne _ _ fun heq => hkey ?_
        obtain ⟨rfl, hrest⟩ := Prod.mk.inj heq
        rw [(Prod.mk.inj hrest).1]
      rw [hlog]
      exact hpre.log subject checkType
  · intro subject checkType
    rw [h.index, KeyedStore.get_set, checksOf_snoc_of_some hrecorded]
    by_cases hsubject : subject = record.subject
    · subst hsubject
      rw [if_pos rfl, Option.getD_some, mem_pushIfAbsent, hpre.listed]
      by_cases htype : checkType = record.checkType
      · subst htype
        simp
      · rw [if_neg fun heq => htype (Prod.mk.inj heq).2, or_iff_right htype]
    · rw [if_neg hsubject, if_neg fun heq => hsubject (Prod.mk.inj heq).1]
      exact hpre.listed subject checkType
  · intro subject
    rw [h.index, KeyedStore.get_set]
    split
    · exact nodup_pushIfAbsent (hpre.distinct record.subject)
    · exact hpre.distinct subject

theorem HoldsChecks.of_kept (hpre : HoldsChecks past st) (hnone : checkRecorded t = none) :
    HoldsChecks (past ++ [t]) st := by
  constructor
  · simpa only [checksOf_snoc_of_none hnone] using hpre.latest
  · simpa only [checksOf_snoc_of_none hnone] using hpre.log
  · simpa only [checksOf_snoc_of_none hnone] using hpre.listed
  · exact hpre.distinct

theorem getComplianceCheckHistory_eq (h : HoldsChecks past s.compliance) (limit : UInt64) :
    getComplianceCheckHistory s subject checkType limit =
      (checksOf subject checkType past).drop
        ((checksOf subject checkType past).length - min limit.toNat 50) := by
  have hlog := h.log subject checkType
  have hstart : ∀ total effectiveLimit : UInt64,
      (if effectiveLimit < total then total - effectiveLimit else 0).toNat =
        total.toNat - effectiveLimit.toNat := by
    intro total effectiveLimit
    split
    · rename_i hlt
      exact UInt64.toNat_sub_of_le _ _ (UInt64.le_of_lt hlt)
    · rename_i hge
      rw [UInt64.lt_iff_toNat_lt, not_lt] at hge
      rw [Nat.sub_eq_zero_of_le hge]
      rfl
  rw [getComplianceCheckHistory]
  simp only [hstart, Word.toNat_min64]
  rw [← hlog.length]
  exact hlog.filterMap_range' _

theorem checkCompliance_eq_ok_of_holds (h : HoldsChecks past s.compliance) :
    checkCompliance s subject true = .ok () ↔
      ∃ c, (checksOf subject "kyc" past).getLast? = some c ∧ c.result = 1 := by
  rw [checkCompliance, if_pos rfl, require_eq_ok, compliancePassed, ← h.latest]
  cases s.compliance.check.get (subject, "kyc") with
  | none => simp
  | some c => simp

end Calls

section Runs

variable {host : Host} {sha256 : Bytes → BytesN 32} {past : List ContractState.Transition}
  {t : ContractState.Transition}

theorem compliance_step (h : ContractState.step host sha256 t.pre t.input = .ok t.post) :
    (checkRecorded t = none ∧ t.post.core.compliance = t.pre.core.compliance) ∨
      ∃ record, checkRecorded t = some record ∧ requireAdmin t.input.1 t.pre.core = .ok () ∧
        RecordsCheck record t.pre.core.compliance t.post.core.compliance := by
  obtain ⟨pre, ⟨env, e⟩, post⟩ := t
  have hregisters := ContractState.enter_registers h
  cases e with
  | core c =>
    simp only [ContractState.step, ContractState.enter, bind_eq_ok, pure_eq_ok] at h
    obtain ⟨_, hinvoke, rfl⟩ := h
    by_cases hc : .compliance ∈ c.touches
    · cases c with
      | recordComplianceCheck subject checkType passed score =>
        obtain ⟨hadmin, hrecords⟩ := recordComplianceCheck_effects hinvoke
        exact Or.inr ⟨_, rfl, hadmin, hrecords⟩
      | _ => exact absurd hc (by simp [Call.touches])
    · refine Or.inl ⟨?_, invoke_sameOutside hinvoke .compliance hc⟩
      cases c with
      | recordComplianceCheck => exact absurd (by simp [Call.touches]) hc
      | _ => rfl
  | _ =>
    have hsame := hregisters (by simp)
    exact Or.inl ⟨rfl, hsame .compliance (by decide)⟩

theorem holdsChecks_run (host : Host) (sha256 : Bytes → BytesN 32)
    (is : List ContractState.Input) :
    HoldsChecks (ContractState.history host sha256 is)
      (ContractState.run host sha256 is).core.compliance := by
  have hempty : HoldsChecks [] ContractState.empty.core.compliance :=
    ⟨fun _ _ => rfl, fun _ _ => NumberedLog.holds_nil, fun _ _ => by simp [checksOf,
      ContractState.empty, Storage.empty, KeyedStore.get_empty], fun _ => List.nodup_nil⟩
  refine Machine.history_invariant (ContractState.step host sha256)
    (fun past s => HoldsChecks past s.core.compliance) (fun _ => True) hempty ?_ is
    fun _ _ => trivial
  intro past t ht hpre _
  rcases compliance_step ht with ⟨hnone, hsame⟩ | ⟨record, hrecorded, _, hrecords⟩
  · rw [hsame]
    exact hpre.of_kept hnone
  · exact hpre.of_recorded hrecords hrecorded

/-- The checks of subjects after any run of the contract. -/
theorem compliance_run (host : Host) (sha256 : Bytes → BytesN 32)
    (is : List ContractState.Input) :
    ComplianceTold (ContractState.history host sha256 is)
      (ContractState.run host sha256 is).core := by
  have hrun := holdsChecks_run host sha256 is
  refine ⟨hrun.latest, fun _ _ limit => getComplianceCheckHistory_eq hrun limit, hrun.listed,
    hrun.distinct, fun _ => checkCompliance_eq_ok_of_holds hrun, fun t ht hsome => ?_⟩
  rcases compliance_step (step_of_mem_transitions _ ht) with ⟨hnone, _⟩ | ⟨_, _, hadmin, _⟩
  · rw [hnone] at hsome
    cases hsome
  · exact requireAdmin_eq_ok.mp hadmin

end Runs

end AnchorKit
