import Gridshift.ClusterRun
import Gridshift.Paging

namespace Gridshift
open Paging Sorting
set_option autoImplicit true

structure NamespaceInfo where
  name : String
deriving DecidableEq, Repr

structure DescribeNamespaceResponse where
  namespaceInfo : Option NamespaceInfo

structure ListNamespacesRequest where
  pageSize : Nat
  nextPageToken : List UInt8

structure ListNamespacesResponse where
  namespaces : List DescribeNamespaceResponse
  nextPageToken : List UInt8

/-- The cluster's answers, call by call; what they rest on may change in between. -/
abbrev WorkflowService := Nat → ListNamespacesRequest → Except String ListNamespacesResponse

def isManaged (name : String) : Bool := !name.isEmpty && name != "temporal-system"

/-- The names of a page that are kept. -/
def managedNames (resp : ListNamespacesResponse) : List String :=
  resp.namespaces.filterMap fun ns =>
    ns.namespaceInfo.bind fun info => if isManaged info.name then some info.name else none

/-- The loop over the pages, for a number of them: a cluster may never come to its last. -/
def listNamespaces (service : WorkflowService) :
    Nat → Nat → List UInt8 → List String → Option (Except String (List String))
  | 0, _, _, _ => none
  | fuel + 1, n, nextPageToken, namespaces =>
    match service n { pageSize := 100, nextPageToken := nextPageToken } with
    | .error e => some (.error s!"list_namespaces: {e}")
    | .ok resp =>
      if resp.nextPageToken.isEmpty then some (.ok (namespaces ++ managedNames resp))
      else listNamespaces service fuel (n + 1) resp.nextPageToken (namespaces ++ managedNames resp)

def listManagedNamespaces (service : WorkflowService) (fuel : Nat) :
    Option (Except String (List String)) := listNamespaces service fuel 0 [] []

/-- A page of the listing, and the cursor that an empty token stands for the lack of. -/
def pageOf (service : WorkflowService) (n : Nat) (nextPageToken : List UInt8) :
    Except String (ListNamespacesResponse × Option (List UInt8)) :=
  match service n { pageSize := 100, nextPageToken := nextPageToken } with
  | .error e => .error s!"list_namespaces: {e}"
  | .ok resp =>
    .ok (resp, if resp.nextPageToken.isEmpty then none else some resp.nextPageToken)

theorem listNamespaces_eq (service : WorkflowService) (fuel n : Nat) (token : List UInt8)
    (namespaces : List String) :
    listNamespaces service fuel n token namespaces =
      collect (pageOf service) managedNames fuel n token namespaces := by
  induction fuel generalizing n token namespaces with
  | zero => rfl
  | succ fuel ih =>
    rw [listNamespaces, collect, pageOf]
    cases service n { pageSize := 100, nextPageToken := token } with
    | error e => rfl
    | ok resp =>
      by_cases hlast : resp.nextPageToken.isEmpty
      · simp only [hlast, if_true]
      · simp only [hlast, if_false, Bool.false_eq_true, ih]

theorem mem_managedNames_iff {resp : ListNamespacesResponse} :
    name ∈ managedNames resp ↔ isManaged name = true ∧
      ∃ ns ∈ resp.namespaces, ns.namespaceInfo = some ⟨name⟩ := by
  rw [managedNames, List.mem_filterMap]
  constructor
  · rintro ⟨ns, hns, hname⟩
    obtain ⟨info, hinfo, hname⟩ := Option.bind_eq_some_iff.1 hname
    split at hname
    · rename_i hmanaged
      cases hname
      exact ⟨hmanaged, ns, hns, hinfo⟩
    · cases hname
  · rintro ⟨hmanaged, ns, hns, hinfo⟩
    refine ⟨ns, hns, ?_⟩
    rw [hinfo, Option.bind_some, if_pos hmanaged]

/-- A cluster that lists the same pages to every call, with a token for each but the first. -/
structure KeepsTo (service : WorkflowService) (pages : List (List NamespaceInfo))
    (token : Nat → List UInt8) : Prop where
  first : token 0 = []
  later : ∀ i, token (i + 1) ≠ []
  answers : ∀ n i (hi : i < pages.length),
    service n { pageSize := 100, nextPageToken := token i } = .ok {
      namespaces := pages[i].map fun info => ⟨some info⟩
      nextPageToken := if i + 1 < pages.length then token (i + 1) else [] }

theorem managedNames_page (infos : List NamespaceInfo) (token : List UInt8) :
    managedNames ⟨infos.map fun info => ⟨some info⟩, token⟩ =
      (infos.map NamespaceInfo.name).filter isManaged := by
  rw [managedNames, List.filterMap_map, ← List.filterMap_eq_filter, List.filterMap_map]
  exact List.filterMap_congr fun info _ => rfl

theorem KeepsTo.pageOf_eq (h : KeepsTo service pages token) (n : Nat) {i : Nat}
    (hi : i < pages.length) :
    pageOf service n (token i) = .ok ({
      namespaces := pages[i].map fun info => ⟨some info⟩
      nextPageToken := if i + 1 < pages.length then token (i + 1) else [] },
      if i + 1 < pages.length then some (token (i + 1)) else none) := by
  rw [pageOf, h.answers n i hi]
  by_cases hlast : i + 1 < pages.length
  · simp only [hlast, if_true, List.isEmpty_iff, h.later i, if_false]
  · simp only [hlast, if_false, List.isEmpty_nil, if_true]

theorem KeepsTo.serves (h : KeepsTo service pages token) (hne : pages ≠ []) :
    ∃ responses, Serves (pageOf service) 0 [] responses ∧
      responses.flatMap managedNames =
        (pages.flatten.map NamespaceInfo.name).filter isManaged := by
  let responses : List ListNamespacesResponse := pages.mapIdx fun i infos =>
    ⟨infos.map fun info => ⟨some info⟩, if i + 1 < pages.length then token (i + 1) else []⟩
  have hlength : responses.length = pages.length := List.length_mapIdx
  have hstable (n i : Nat) (hi : i < responses.length) : pageOf service n (token i) =
      .ok (responses[i], if i + 1 < responses.length then some (token (i + 1)) else none) := by
    rw [h.pageOf_eq n (hlength ▸ hi)]
    simp only [responses, List.getElem_mapIdx, List.length_mapIdx]
  refine ⟨responses, ?_, ?_⟩
  · have hserves := serves_of_stable hstable 0 (hlength ▸ List.length_pos_iff.2 hne)
    rwa [h.first, List.drop_zero] at hserves
  · have hnames : responses.map managedNames =
        pages.map fun infos => (infos.map NamespaceInfo.name).filter isManaged := by
      apply List.ext_getElem
      · rw [List.length_map, List.length_map, hlength]
      · intro i hi hi'
        rw [List.getElem_map, List.getElem_map]
        exact (congrArg managedNames List.getElem_mapIdx).trans (managedNames_page _ _)
    rw [List.flatMap_def, hnames, List.map_flatten, List.filter_flatten, List.map_map]
    rfl

/-- The activity returns exactly when the cluster serves the listing to its end, and then the names
of all pages, in their order and as often as they come, but for the system's own and empty ones; it
fails exactly when a page is refused, and returns nothing then of the pages before. From a cluster
that keeps to its pages it gets all that are registered. -/
theorem listManagedNamespaces_iff (service : WorkflowService) :
    (∀ names, (∃ fuel, listManagedNamespaces service fuel = some (.ok names)) ↔
      ∃ pages, Serves (pageOf service) 0 [] pages ∧ names = pages.flatMap managedNames) ∧
    (∀ message, (∃ fuel, listManagedNamespaces service fuel = some (.error message)) ↔
      ∃ k, Fails (pageOf service) 0 [] k message) ∧
    (∀ pages, Serves (pageOf service) 0 [] pages → ∀ fuel, pages.length ≤ fuel →
      listManagedNamespaces service fuel = some (.ok (pages.flatMap managedNames))) ∧
    ∀ pages token, KeepsTo service pages token → pages ≠ [] →
      ∃ fuel, listManagedNamespaces service fuel =
        some (.ok ((pages.flatten.map NamespaceInfo.name).filter isManaged)) := by
  simp only [listManagedNamespaces, listNamespaces_eq]
  refine ⟨?_, ?_, ?_, ?_⟩
  · intro names
    rw [exists_collect_ok_iff]
    simp only [List.nil_append]
  · exact fun message => exists_collect_error_iff
  · intro pages hserves fuel hfuel
    rw [hserves.collect_eq hfuel, List.nil_append]
  · intro pages token hkeeps hne
    obtain ⟨responses, hserves, hnames⟩ := hkeeps.serves hne
    exact ⟨responses.length, by rw [hserves.collect_eq (le_refl _), List.nil_append, hnames]⟩

/-- A namespace of its own name that the cluster lists, and that is not the system's. -/
def ManagedNamespace (service : WorkflowService) (name : String) : Prop :=
  name ≠ "" ∧ name ≠ "temporal-system" ∧
    ∃ pages, Serves (pageOf service) 0 [] pages ∧ ∃ resp ∈ pages, ∃ ns ∈ resp.namespaces,
      ns.namespaceInfo = some ⟨name⟩

theorem managed_of_mem (h : listManagedNamespaces service fuel = some (.ok names))
    (hname : name ∈ names) : ManagedNamespace service name := by
  rw [listManagedNamespaces, listNamespaces_eq] at h
  obtain ⟨pages, hserves, rfl⟩ := exists_collect_ok_iff.1 ⟨fuel, h⟩
  obtain ⟨resp, hresp, hname⟩ := List.mem_flatMap.1 hname
  obtain ⟨hmanaged, hns⟩ := mem_managedNames_iff.1 hname
  simp only [isManaged, Bool.and_eq_true, Bool.not_eq_true', bne_iff_ne] at hmanaged
  refine ⟨?_, hmanaged.2, pages, hserves, resp, hresp, hns⟩
  rintro rfl
  exact absurd hmanaged.1 (by decide)

theorem reported_namespace {api : DiscoveryApi Calendar}
    (h : ref ∈ reported (ns, discoverSchedules api slotMins o ⟨ns, query, horizonSecs⟩)) :
    ref.namespace = ns := by
  simp only [discoverSchedules] at h
  cases hclient : api.clientFor ns with
  | error e =>
    rw [hclient] at h
    cases List.mem_singleton.1 h
    rfl
  | ok u =>
    rw [hclient] at h
    cases hids : listedIds api ⟨ns, query, horizonSecs⟩ with
    | error e =>
      rw [hids] at h
      cases hperm : e.isPermanent with
      | false =>
        simp only [hperm] at h
        cases List.mem_singleton.1 h
        rfl
      | true =>
        simp only [hperm] at h
        cases List.mem_singleton.1 h
        rfl
    | ok ids =>
      rw [hids] at h
      have hperm := ((List.perm_insertionSort (fun a b : ScheduleInfo => a.scheduleId ≤ b.scheduleId)
        (lefts ((o.run ids).map (describeOne api ⟨ns, query, horizonSecs⟩)))).map
          ScheduleInfo.ref).append_right
          ((rights ((o.run ids).map (describeOne api ⟨ns, query, horizonSecs⟩))).map
            SkippedSchedule.ref)
      obtain ⟨outcome, houtcome, rfl⟩ :=
        List.mem_map.1 ((hperm.trans (split_perm _ _ _)).mem_iff.1 h)
      obtain ⟨scheduleId, -, rfl⟩ := List.mem_map.1 houtcome
      exact congrArg ScheduleRef.namespace (describeOne_ref api _ scheduleId)

section Run
variable {world : World Calendar} {o : Orders} {lib : Libraries} {tzdb : String → Option Tz}
  {input : SchedulerInput} {updates : Nat → UpdateWindowsInput → Except String UpdateOutcome}

/-- All that a run accounts for is in a namespace that was listed. -/
theorem namespace_of_accountedFor
    (h : planStage lib tzdb (world.activitiesWith o updates) input = .ok stage)
    (href : ref ∈ accountedFor stage) :
    ∃ namespaces, world.listManagedNamespaces = .ok namespaces ∧ ref.namespace ∈ namespaces := by
  obtain ⟨now, tz, listed, -, -, hlisted, hperm, -⟩ := planStage_refs h
  change world.listManagedNamespaces.map o.namespaces.run = .ok listed at hlisted
  cases hlist : world.listManagedNamespaces with
  | error e =>
    rw [hlist] at hlisted
    cases hlisted
  | ok namespaces =>
    rw [hlist] at hlisted
    cases hlisted
    obtain ⟨outcome, houtcome, href⟩ := List.mem_flatMap.1 (hperm.mem_iff.1 href)
    obtain ⟨⟨ns, i⟩, hns, rfl⟩ := List.mem_map.1 houtcome
    obtain ⟨hi, hname⟩ := List.mem_zipIdx' hns
    refine ⟨namespaces, rfl, o.namespaces.mem_run.1 ?_⟩
    rw [reported_namespace href, hname]
    exact List.getElem_mem hi

theorem scheduleRef_mem_accountedFor
    (ha : a ∈ dispatched lib tzdb act input) :
    ∃ stage, planStage lib tzdb act input = .ok stage ∧ a.scheduleRef ∈ accountedFor stage := by
  rw [dispatched] at ha
  split at ha
  · rename_i skipped plan hstage
    exact ⟨_, hstage, List.mem_append_left _ (List.mem_map_of_mem ha)⟩
  · cases ha

/-- A result accounts for nothing but what its run had discovered when it started the updates. -/
theorem mem_accountedFor_of_result (hrun : run lib tzdb act input = .ok result)
    (href : ref ∈ result.updates.map ScheduleUpdateSummary.ref ++
      result.skipped.map SkippedSchedule.ref) :
    ∃ stage, planStage lib tzdb act input = .ok stage ∧ ref ∈ accountedFor stage := by
  obtain ⟨stage, hstage, hrun⟩ := except_bind_eq_ok_iff.1 hrun
  refine ⟨stage, hstage, ?_⟩
  cases stage with
  | inl early =>
    cases hrun
    exact href
  | inr p =>
    obtain ⟨recorded, hrecorded, hrun⟩ := except_bind_eq_ok_iff.1 hrun
    cases hrun
    rw [mapM_eq_ok_iff] at hrecorded
    have hperm := recorded_refs_perm hrecorded
    rw [updateOutcomes_refs] at hperm
    simp only [List.map_append, List.mem_append] at href
    simp only [accountedFor, List.map_append, List.mem_append]
    have hdone : ref ∈ (lefts recorded).map ScheduleUpdateSummary.ref ++
        (rights recorded).map SkippedSchedule.ref ↔ _ := hperm.mem_iff
    rw [List.mem_append] at hdone
    rcases href with hupdated | (hskipped | hskipped) | hfailed
    · exact .inl (hdone.1 (.inl hupdated))
    · exact .inr (.inl hskipped)
    · exact .inr (.inr hskipped)
    · exact .inl (hdone.1 (.inr hfailed))

end Run

/-- With the namespaces that the cluster lists, page by page, a run sends no update to a schedule
of any other, nor of the system's own, and reports on none. -/
theorem run_stays_managed (service : WorkflowService) (fuel : Nat) (world : World Calendar)
    (o : Orders) (lib : Libraries) (tzdb : String → Option Tz) (input : SchedulerInput)
    (updates : Nat → UpdateWindowsInput → Except String UpdateOutcome)
    (hlist : listManagedNamespaces service fuel = some world.listManagedNamespaces) :
    (∀ a ∈ dispatched lib tzdb (world.activitiesWith o updates) input,
      ManagedNamespace service a.scheduleRef.namespace) ∧
    ∀ result, run lib tzdb (world.activitiesWith o updates) input = .ok result →
      ∀ ref ∈ result.updates.map ScheduleUpdateSummary.ref ++
        result.skipped.map SkippedSchedule.ref, ManagedNamespace service ref.namespace := by
  have hmanaged {stage} (hstage : planStage lib tzdb (world.activitiesWith o updates) input =
      .ok stage) {ref} (href : ref ∈ accountedFor stage) :
      ManagedNamespace service ref.namespace := by
    obtain ⟨namespaces, hnamespaces, hmem⟩ := namespace_of_accountedFor hstage href
    rw [hnamespaces] at hlist
    exact managed_of_mem hlist hmem
  constructor
  · intro a ha
    obtain ⟨stage, hstage, href⟩ := scheduleRef_mem_accountedFor ha
    exact hmanaged hstage href
  · intro result hrun ref href
    obtain ⟨stage, hstage, href⟩ := mem_accountedFor_of_result hrun href
    exact hmanaged hstage href

section Sample

/-- A cluster that lists its namespaces on two pages. -/
def twoPages : WorkflowService := fun _ request =>
  if request.nextPageToken = [] then .ok ⟨[⟨some ⟨"temporal-system"⟩⟩, ⟨some ⟨"east"⟩⟩], [1]⟩
  else .ok ⟨[⟨some ⟨"west"⟩⟩], []⟩

theorem listManagedNamespaces_iff_twoPages :
    ∃ fuel, listManagedNamespaces twoPages fuel = some (.ok ["east", "west"]) := by
  have hkeeps : KeepsTo twoPages [[⟨"temporal-system"⟩, ⟨"east"⟩], [⟨"west"⟩]]
      (fun i => if i = 0 then [] else [1]) := by
    refine ⟨rfl, fun i => by simp, ?_⟩
    intro n i hi
    match i, hi with
    | 0, _ => rfl
    | 1, _ => rfl
  exact (listManagedNamespaces_iff twoPages).2.2.2 _ _ hkeeps (List.cons_ne_nil _ _)

theorem run_stays_managed_twoPages : ManagedNamespace twoPages "east" := by
  have h := (run_stays_managed twoPages 2 longSlots .asCalled eager utcOnly ⟨"q", "UTC"⟩
    firstAcknowledged rfl).2 _ longSlots_run
  exact h ⟨"east", "backup"⟩ (List.mem_cons_self ..)

end Sample

end Gridshift
