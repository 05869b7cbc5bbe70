import FastSearch.Ad.Waterfall

/-!
# The order of an ad waterfall

A load of `ad/request/RequestTransmitter.kt` from the manifest on: `getRequestParams` filters and
sorts the entries, the entries are requested in that order, once or for the open space twice, and
the first ad or the missing one is delivered and cached.
-/

namespace FastSearch.Ad

open Server

universe u

/-! ### The entries of a space -/

/-- A stable sort leaves the elements that are all related to each other in their order. -/
private theorem filter_insertionSort {α : Type u} {r : α → α → Prop} [DecidableRel r] (l : List α)
    {p : α → Bool} (hp : ∀ a b, p a = true → p b = true → r a b) :
    (l.insertionSort r).filter p = l.filter p := by
  have hall : (l.filter p).Pairwise r := by
    apply List.pairwise_of_forall_mem_list
    intro a ha b hb
    exact hp a b (List.mem_filter.mp ha).2 (List.mem_filter.mp hb).2
  have hsub : ((l.filter p).filter p).Sublist ((l.insertionSort r).filter p) :=
    (List.sublist_insertionSort hall List.filter_sublist).filter p
  simp only [List.filter_filter, Bool.and_self] at hsub
  exact (hsub.eq_of_length ((List.perm_insertionSort r l).filter p).length_eq.symm).symm

/-- The admob entries of a space in the order of the manifest; the shipped manifest stands in
for one without entries, `ad/manager/AdvertiseManager.kt:45`. -/
def Manifest.admobEntries (J : OrgJson) (m : Manifest) (space : String) : Option (List Param) :=
  ((parseRequestParam J m.mAdManifestJson space).bind fun remote ↦
    if remote.isEmpty then parseRequestParam J m.mLocalAdJson space else some remote).map
    (·.filter fun p ↦ p.source == "admob")

/-- The entries by their sort, the highest first; entries of one sort stay in their order. -/
structure ByDescendingSort (entries params : List Param) : Prop where
  perm : params.Perm entries
  descending : params.Pairwise fun a b ↦ b.sort ≤ a.sort
  stable : ∀ sort : Int32, params.filter (·.sort = sort) = entries.filter (·.sort = sort)

theorem byDescendingSort_insertionSort (entries : List Param) :
    ByDescendingSort entries (entries.insertionSort fun a b ↦ b.sort ≤ a.sort) where
  perm := List.perm_insertionSort _ entries
  descending := by
    have htotal : Std.Total fun a b : Param ↦ b.sort ≤ a.sort :=
      ⟨fun a b ↦ Int32.le_total b.sort a.sort⟩
    have htrans : IsTrans Param fun a b ↦ b.sort ≤ a.sort :=
      ⟨fun a b c hab hbc ↦ Int32.le_trans hbc hab⟩
    exact List.pairwise_insertionSort _ entries
  stable := by
    intro sort
    apply filter_insertionSort
    intro a b ha hb
    rw [of_decide_eq_true ha, of_decide_eq_true hb]
    exact Int32.le_refl sort

/-- What `getRequestParams` returns are the admob entries by their sort. -/
theorem Manifest.getRequestParams_of_admobEntries {J : OrgJson} {m : Manifest} {space : String}
    {entries : List Param} (h : m.admobEntries J space = some entries) :
    ∃ params, m.getRequestParams J space = some params ∧ ByDescendingSort entries params := by
  obtain ⟨read, hread, rfl⟩ := Option.map_eq_some_iff.mp h
  refine ⟨_, ?_, byDescendingSort_insertionSort _⟩
  rw [getRequestParams_eq, hread]
  rfl

/-! ### The run of a load -/

/-- The entries in the order of their requests: the open space goes through them twice. -/
def requestOrder (space : String) (params : List Param) : List Param :=
  if space = spaceOpen then params ++ params else params

/-- The answers that a load of `len` requests takes, and the result it ends with. -/
inductive EndsWith (A : SdkAnswers) (len : Nat) : Nat → RequestResult → Prop where
  /-- The first ad. -/
  | firstSuccess {j ad : Nat} (request : j < len) (failed : ∀ i < j, (A.answer i).ad = none)
      (loaded : (A.answer j).ad = some ad) : EndsWith A len (j + 1) (.forResult ad)
  /-- No ad at all. -/
  | allFailed (failed : ∀ i < len, (A.answer i).ad = none) : EndsWith A len len .forNoAd

/-- The entries requested after a transmitter's earlier requests. -/
def TransmitterRun.requested {κ : Type u} (s : TransmitterRun κ) (before : RequestTransmitter κ) :
    List (Option Param) :=
  (s.transmitter.loads.drop before.loads.length).map Load.param

/-- A load of a transmitter `t` that requests entries in an order and ends after `last` answers
with a result. -/
structure RunsThrough {κ : Type u} [DecidableEq κ] (t : RequestTransmitter κ) (callback : Option κ)
    (order : List Param) (run : Nat → TransmitterRun κ) (last : Nat) (time : Int)
    (result : RequestResult) : Prop where
  /-- After `n` answers `n + 1` entries are requested, and nothing is delivered or cached. -/
  oneAtATime : ∀ n < last, (run n).requested t = (order.take (n + 1)).map some ∧
    (run n).answered = t.loads.length + n ∧ (run n).told = [] ∧
    (run n).transmitter.mCallbacks = (t.register callback).mCallbacks ∧
    (run n).transmitter.mIsLoading = true ∧
    ((run n).transmitter.mCachedResult = t.mCachedResult ∨
      (run n).transmitter.mCachedResult = none)
  /-- With the last answer no further entry is requested. -/
  stops : (run last).requested t = (order.take last).map some
  /-- `finalResult` is called with the result. -/
  final : ∃ t' : RequestTransmitter κ, t'.mCallbacks = (t.register callback).mCallbacks ∧
    (run last).transmitter = (t'.finalResult time result).1 ∧
    (run last).told = (t'.finalResult time result).2
  delivered : (run last).told = (t.register callback).mCallbacks.map (⟨·, result⟩)
  cached : (run last).transmitter.mCachedResult = some ⟨result, time⟩
  idle : (run last).transmitter.mIsLoading = false
  /-- Nothing follows the call. -/
  once : ∀ n, run (last + n) = run last

theorem map_param_requestsOf (space : String) (params : List Param) :
    (requestsOf space params).map Load.param = (requestOrder space params).map some := by
  have hpass : ∀ second : Bool,
      ((List.range params.length).map (Load.mk params · second)).map Load.param =
        params.map some := by
    intro second
    apply List.ext_getElem?
    intro i
    by_cases hi : i < params.length
    · simp [Load.param, hi]
    · simp [hi]
  unfold requestsOf requestOrder
  split
  · rw [List.map_append, hpass, hpass, List.map_append]
  · rw [List.append_nil, hpass]

theorem length_requestOrder (space : String) (params : List Param) :
    (requestsOf space params).length = (requestOrder space params).length := by
  have h := congrArg List.length (map_param_requestsOf space params)
  rwa [List.length_map, List.length_map] at h

/-- The answers decide where a load ends. -/
theorem exists_endsWith (A : SdkAnswers) (len : Nat) :
    ∃ last result, EndsWith A len last result := by
  by_cases h : ∃ j, j < len ∧ (A.answer j).ad ≠ none
  · obtain ⟨hj, hs⟩ := Nat.find_spec h
    obtain ⟨ad, had⟩ := Option.ne_none_iff_exists'.mp hs
    refine ⟨_, _, .firstSuccess hj ?_ had⟩
    intro i hi
    by_contra hn
    exact Nat.find_min h hi ⟨by omega, hn⟩
  · refine ⟨len, .forNoAd, .allFailed ?_⟩
    intro i hi
    by_contra hn
    exact h ⟨i, hi, hn⟩

theorem SdkAnswers.ok_eq_false (A : SdkAnswers) {i : Nat} (h : (A.answer i).ad = none) :
    A.ok i = false := by
  rw [ok, SdkAnswer.isLoaded, h]
  rfl

/-- Before its end, a load has had failures only. -/
theorem EndsWith.failures {A : SdkAnswers} {len last : Nat} {result : RequestResult}
    (h : EndsWith A len last result) {n : Nat} (hn : n < last) :
    n < len ∧ ∀ i < n, A.ok i = false := by
  cases h with
  | firstSuccess request failed loaded =>
    exact ⟨by omega, fun i hi ↦ A.ok_eq_false (failed i (by omega))⟩
  | allFailed failed => exact ⟨hn, fun i hi ↦ A.ok_eq_false (failed i (by omega))⟩

namespace TransmitterRun

variable {κ : Type u} [DecidableEq κ] {t : RequestTransmitter κ} {params : List Param}

theorem able_requestsOf (space : String) (hk : ∀ p ∈ params, p.known = true) {n : Nat}
    (hn : n < (requestsOf space params).length) : able (requestsOf space params) n = true := by
  have hr : (requestsOf space params)[n]? = some (requestsOf space params)[n] :=
    List.getElem?_eq_getElem hn
  have hmem : ∀ i, i < params.length → params[i]?.any (·.known) = true := by
    intro i hi
    rw [List.getElem?_eq_getElem hi]
    exact hk _ (List.getElem_mem hi)
  rw [able, hr]
  rcases requestsOf_cases hr with ⟨hlt, he⟩ | ⟨i, _, _, hi, he⟩
  · rw [he]
    exact hmem n hlt
  · rw [he]
    exact hmem i hi

omit [DecidableEq κ] in
/-- The first requests of a load are the first entries of the order. -/
theorem requested_of_loads {s : TransmitterRun κ} {n : Nat}
    (h : s.transmitter.loads = t.loads ++ (requestsOf t.space params).take n) :
    s.requested t = ((requestOrder t.space params).take n).map some := by
  rw [requested, h, List.drop_left, List.map_take, map_param_requestsOf, List.map_take]

/-- As long as all answers were failures, the next request is outstanding. -/
theorem drive_before {now : Int} (hl : t.mIsLoading = false) (hc : t.freshCache now = none)
    (callback : Option κ) (hk : ∀ p ∈ params, p.known = true) {A : SdkAnswers} {n : Nat}
    (hn : n < (requestsOf t.space params).length) (hf : ∀ i < n, A.ok i = false) :
    (start t callback params now).drive A n =
      ofPhase (t.started callback now) (requestsOf t.space params) A now (.asking n) := by
  rw [drive_eq_ofPhase hl hc, Waterfall.after_of_failures hf, Waterfall.ask_of_able hn]
  · exact able_requestsOf t.space hk hn
  · intro j hj
    have hlt : j < (requestsOf t.space params).length := by omega
    exact ⟨hlt, able_requestsOf t.space hk hlt⟩

/-- The last answer ends the load with the result. -/
theorem drive_last {now : Int} (hl : t.mIsLoading = false) (hc : t.freshCache now = none)
    (callback : Option κ) (hk : ∀ p ∈ params, p.known = true) {A : SdkAnswers} {last : Nat}
    {result : RequestResult} (h : EndsWith A (requestsOf t.space params).length last result)
    (n : Nat) :
    (start t callback params now).drive A (last + n) =
      finished (asked (t.started callback now) (requestsOf t.space params) last)
        (A.timeOf now last) result := by
  have hable : ∀ i < (requestsOf t.space params).length,
      able (requestsOf t.space params) i = true := fun i hi ↦ able_requestsOf t.space hk hi
  rw [drive_eq_ofPhase hl hc]
  cases h with
  | @firstSuccess j ad request failed loaded =>
    have hs : A.ok j = true := by
      rw [SdkAnswers.ok, SdkAnswer.isLoaded, loaded]
      rfl
    have hresult : (A.answer j).result = .forResult ad := by
      cases ha : A.answer j with
      | loaded x =>
        rw [ha] at loaded
        cases loaded
        rfl
      | failed message =>
        rw [ha] at loaded
        cases loaded
    have hw := Waterfall.after_of_success request (fun i hi ↦ hable i (by omega))
      (fun i hi ↦ A.ok_eq_false (failed i hi)) hs
    rw [Waterfall.after_add_of_ended (by rw [hw]; rfl), hw, ofPhase, hresult]
    rfl
  | allFailed failed =>
    have hw := Waterfall.after_of_no_success hable fun i hi ↦ A.ok_eq_false (failed i hi)
    rw [Waterfall.after_add_of_ended (by rw [hw]; rfl), hw, ofPhase]

/-- A load over entries of known types goes through them until the answers end it. -/
theorem runsThrough {now : Int} (hl : t.mIsLoading = false) (hc : t.freshCache now = none)
    (callback : Option κ) (hk : ∀ p ∈ params, p.known = true) {A : SdkAnswers} {last : Nat}
    {result : RequestResult} (h : EndsWith A (requestsOf t.space params).length last result) :
    RunsThrough t callback (requestOrder t.space params)
      ((start t callback params now).drive A) last (A.timeOf now last) result := by
  have hlast := drive_last hl hc callback hk h
  have hloads : ∀ n, (asked (t.started callback now) (requestsOf t.space params) n).loads =
      t.loads ++ (requestsOf t.space params).take n := by
    intro n
    rw [asked, RequestTransmitter.loads_started]
  obtain ⟨cache, hcache, hstarted⟩ := RequestTransmitter.started_eq t callback now
  have hcallbacks : (t.started callback now).mCallbacks = (t.register callback).mCallbacks := by
    rw [hstarted]
  constructor
  case oneAtATime =>
    intro n hn
    obtain ⟨hlt, hf⟩ := h.failures hn
    rw [drive_before hl hc callback hk hlt hf]
    refine ⟨requested_of_loads (hloads (n + 1)), ?_, rfl, hcallbacks, rfl, ?_⟩
    · rw [ofPhase, hloads, List.length_append, List.length_take,
        Nat.min_eq_left (Nat.le_of_lt hlt)]
    · rw [ofPhase, asked, hstarted]
      exact hcache
  case stops =>
    rw [← Nat.add_zero last, hlast 0]
    exact requested_of_loads ((loads_finished _ _ _).trans (hloads last))
  case final =>
    rw [← Nat.add_zero last, hlast 0]
    exact ⟨asked (t.started callback now) (requestsOf t.space params) last, hcallbacks, rfl, rfl⟩
  case delivered =>
    rw [← Nat.add_zero last, hlast 0, finished, RequestTransmitter.finalResult_eq]
    exact congrArg (List.map _) hcallbacks
  case cached =>
    rw [← Nat.add_zero last, hlast 0, finished, RequestTransmitter.finalResult_eq]
    rfl
  case idle =>
    rw [← Nat.add_zero last, hlast 0, finished, RequestTransmitter.finalResult_eq]
  case once =>
    intro n
    exact (hlast n).trans (hlast 0).symm

end TransmitterRun

/-- A `transmit` that starts a load, for a manifest whose admob entries of the space have the
types `o`, `n` and `i`: whatever the SDK answers, the entries are requested one at a time by
descending sort, in the open space twice, up to the first ad; `finalResult` is called once, with
that ad or without one, and delivers and caches the result. -/
theorem transmit_runs_through {κ : Type u} [DecidableEq κ] {J : OrgJson} {m : Manifest}
    {t : RequestTransmitter κ} {entries : List Param} {now : Int}
    (hentries : m.admobEntries J t.space = some entries)
    (hknown : ∀ p ∈ entries, p.known = true) (hl : t.mIsLoading = false)
    (hc : t.freshCache now = none) (callback : Option κ) (A : SdkAnswers) :
    ∃ params, m.getRequestParams J t.space = some params ∧ ByDescendingSort entries params ∧
      ∃ last result, EndsWith A (requestOrder t.space params).length last result ∧
        RunsThrough t callback (requestOrder t.space params)
          ((TransmitterRun.start t callback params now).drive A) last (A.timeOf now last)
          result := by
  obtain ⟨params, hparams, hsort⟩ := Manifest.getRequestParams_of_admobEntries hentries
  obtain ⟨last, result, h⟩ := exists_endsWith A (requestOrder t.space params).length
  refine ⟨params, hparams, hsort, last, result, h, ?_⟩
  apply TransmitterRun.runsThrough hl hc callback
  · intro p hp
    exact hknown p (hsort.perm.mem_iff.mp hp)
  · rw [length_requestOrder]
    exact h

/-- A manifest with two admob entries for the open space, the better one last. -/
def openText : String :=
  "\x7b\"fsp_op\":[\x7b\"fsa_so\":\"admob\",\"fsa_tp\":\"i\",\"fsa_st\":1\x7d," ++
    "\x7b\"fsa_so\":\"admob\",\"fsa_tp\":\"o\",\"fsa_st\":2\x7d]\x7d"

/-- `org.json` on that manifest. -/
def openJson : OrgJson where
  parse text :=
    if text = openText then
      some [("fsp_op", .array [
        .object [("fsa_so", .string "admob"), ("fsa_tp", .string "i"), ("fsa_st", .number "1")],
        .object [("fsa_so", .string "admob"), ("fsa_tp", .string "o"), ("fsa_st", .number "2")]])]
    else none
  text
    | .number literal => literal
    | _ => ""
  int
    | .number "1" => some 1
    | .number "2" => some 2
    | _ => none

/-- Without an ad the open space requests its two entries, the better one first, and requests
them again. -/
theorem runs_through_open_twice :
    ∃ params, (⟨openText, ""⟩ : Manifest).getRequestParams openJson "fsp_op" = some params ∧
      ByDescendingSort [⟨"admob", "", "i", 1⟩, ⟨"admob", "", "o", 2⟩] params ∧
      ∃ last result, EndsWith noFill (requestOrder "fsp_op" params).length last result ∧
        RunsThrough { space := "fsp_op" } (some 0) (requestOrder "fsp_op" params)
          ((TransmitterRun.start { space := "fsp_op" } (some 0) params 0).drive noFill) last
          (noFill.timeOf 0 last) result :=
  transmit_runs_through (t := { space := "fsp_op" }) (m := ⟨openText, ""⟩) (by decide) (by decide)
    rfl rfl (some 0) noFill

end FastSearch.Ad
