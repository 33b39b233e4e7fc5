import Mathlib.Data.List.Flatten
import Meza.Client.SearchWorker
import Meza.Lib.TopK

/-! # A search of the loaded indexes

    `search` of `search-worker.ts` asks FlexSearch for `limit` matches of each loaded
    index. The author is part of what it asks for; the other filters are applied to what
    comes back, and the newest of it are the answer.

    FlexSearch is known by what it may answer: any matching documents, as many as the
    limit allows. -/

namespace Meza.Client.Search
open List

open Store (ID)
open TopK (IsTop Covered isTop_top_iff)

/-! ## Section 1: The search -/

/-- The documents of an index that match a query and have the tag of the author. -/
def matching (fits : String → IndexableMessage → Bool) (query : String) (tag : Option ID)
    (docs : List IndexableMessage) : List IndexableMessage :=
  docs.filter fun m => fits query m && tag.all (· = m.authorId)

structure FlexSearch where
  fits : String → IndexableMessage → Bool
  search : List IndexableMessage → String → Option ID → Nat → List IndexableMessage
  subset : ∀ docs query tag limit, search docs query tag limit ⊆ matching fits query tag docs
  nodup : ∀ docs query tag limit, docs.Nodup → (search docs query tag limit).Nodup
  length : ∀ docs query tag limit, (search docs query tag limit).length =
    min limit (matching fits query tag docs).length

/-- The loaded indexes. A message is in one channel, and once in its index. -/
structure Indexes where
  entries : List (ID × Document)
  keys : Table.UniqueOn Prod.fst entries
  unique : Table.UniqueOn IndexableMessage.id (entries.flatMap fun e => e.2.docs)

section

variable (flex : FlexSearch) (indexes : Indexes) (query : String) (opts : SearchOpts)

/-- An empty id is none. -/
def SearchOpts.tag : Option ID := opts.authorId.filter (· ≠ "")

/-- The indexes that are searched. -/
def Indexes.selected : List Document :=
  let channelId := opts.channelId.getD ""
  let channelIds := if channelId = "" then indexes.entries.map Prod.fst else [channelId]
  channelIds.filterMap (Dict.get indexes.entries)

def found (d : Document) : List IndexableMessage :=
  flex.search d.docs query opts.tag (opts.limit.getD 25)

def search : List SearchHit :=
  Hits.answer opts <| (indexes.selected opts).foldl
    (fun hits d => (found flex query opts d).foldl (Hits.collect opts) hits) {}

/-- The documents that match the query and satisfy every filter that is given. -/
def specified : List IndexableMessage :=
  ((indexes.selected opts).flatMap fun d => matching flex.fits query opts.tag d.docs).filter
    opts.passes

/-- What FlexSearch has found of them. -/
def passed : List IndexableMessage :=
  ((indexes.selected opts).flatMap (found flex query opts)).filter opts.passes

/-- The newest of the specified documents. -/
def Right : Prop :=
  IsTop SearchHit.createdAt (opts.limit.getD 25)
    ((specified flex indexes query opts).map IndexableMessage.hit) (search flex indexes query opts)

end

/-! ## Section 2: What is collected -/

variable {flex : FlexSearch} {indexes : Indexes} {query : String} {opts : SearchOpts}

theorem foldl_collect (msgs : List IndexableMessage) (h : Hits)
    (hunique : Table.UniqueOn IndexableMessage.id msgs) (hnew : ∀ m ∈ msgs, m.id ∉ h.seen) :
    (msgs.foldl (Hits.collect opts) h).results =
      h.results ++ (msgs.filter opts.passes).map IndexableMessage.hit := by
  induction msgs generalizing h with
  | nil => simp
  | cons m msgs ih =>
    obtain ⟨hm, htail⟩ := nodup_cons.mp hunique
    obtain ⟨hfirst, hrest⟩ := forall_mem_cons.mp hnew
    rw [foldl_cons, Hits.collect, if_neg hfirst, ih _ htail]
    · by_cases hpass : opts.passes m = true <;> simp [hpass]
    · intro m' hm' hseen
      rcases mem_append.mp hseen with hseen | hseen
      · exact hrest m' hm' hseen
      · exact hm (mem_singleton.mp hseen ▸ mem_map_of_mem hm')

theorem selected_sublist (indexes : Indexes) (opts : SearchOpts) :
    (indexes.selected opts).Sublist (indexes.entries.map Prod.snd) := by
  unfold Indexes.selected
  dsimp only
  split
  · have hget : ∀ e ∈ indexes.entries, Dict.get indexes.entries e.1 = some e.2 := by
      intro e he
      rw [Dict.get, Table.lookup_of_mem indexes.keys he]
      rfl
    rw [filterMap_map, ← filterMap_eq_map]
    exact (filterMap_congr hget).symm ▸ .refl _
  · rcases hget : Dict.get indexes.entries (opts.channelId.getD "") with _ | d
    · simp [hget]
    · simpa [hget] using ⟨_, Dict.mem_of_get hget⟩

theorem unique_selected (indexes : Indexes) (opts : SearchOpts) :
    Table.UniqueOn IndexableMessage.id ((indexes.selected opts).flatMap Document.docs) := by
  have hsub := (selected_sublist indexes opts).flatMap Document.docs
  rw [flatMap_map] at hsub
  exact indexes.unique.sublist (hsub.map _)

theorem mem_flatMap_mono {ds : List Document} {f g : Document → List IndexableMessage}
    (h : ∀ d, f d ⊆ g d) {m : IndexableMessage} (hm : m ∈ ds.flatMap f) : m ∈ ds.flatMap g := by
  obtain ⟨d, hd, hm⟩ := mem_flatMap.mp hm
  exact mem_flatMap.mpr ⟨d, hd, h d hm⟩

theorem matching_subset (d : Document) : matching flex.fits query opts.tag d.docs ⊆ d.docs :=
  fun _ hm => mem_of_mem_filter hm

theorem found_subset (d : Document) :
    found flex query opts d ⊆ matching flex.fits query opts.tag d.docs :=
  flex.subset _ _ _ _

theorem unique_flatMap {part : Document → List IndexableMessage}
    (hnodup : ∀ d, d.docs.Nodup → (part d).Nodup) (hpart : ∀ d, part d ⊆ d.docs) :
    Table.UniqueOn IndexableMessage.id ((indexes.selected opts).flatMap part) := by
  have hunique := unique_selected indexes opts
  obtain ⟨heach, hdisjoint⟩ := nodup_flatMap.mp (Nodup.of_map _ hunique)
  refine Nodup.map_on (fun m hm m' hm' => Table.eq_of_key hunique (mem_flatMap_mono hpart hm)
    (mem_flatMap_mono hpart hm')) (nodup_flatMap.mpr ⟨fun d hd => hnodup d (heach d hd), ?_⟩)
  exact hdisjoint.imp fun h m hm hm' => h (hpart _ hm) (hpart _ hm')

theorem unique_found :
    Table.UniqueOn IndexableMessage.id ((indexes.selected opts).flatMap (found flex query opts)) :=
  unique_flatMap (fun _ => flex.nodup _ _ _ _) fun d _ hm => matching_subset d (found_subset d hm)

theorem passed_subset : passed flex indexes query opts ⊆ specified flex indexes query opts := by
  intro m hm
  obtain ⟨hfound, hpass⟩ := mem_filter.mp hm
  exact mem_filter.mpr ⟨mem_flatMap_mono found_subset hfound, hpass⟩

theorem nodup_hits {msgs : List IndexableMessage} (h : Table.UniqueOn IndexableMessage.id msgs) :
    ((msgs.filter opts.passes).map IndexableMessage.hit).Nodup := by
  refine Nodup.of_map SearchHit.id ?_
  rw [map_map]
  exact h.sublist (filter_sublist.map _)

/-! ## Section 3: The answer -/

theorem search_eq : search flex indexes query opts =
    TopK.top SearchHit.createdAt (opts.limit.getD 25)
      ((passed flex indexes query opts).map IndexableMessage.hit) := by
  rw [search, ← foldl_flatMap, Hits.answer, foldl_collect _ {} unique_found (by simp)]
  rfl

/-- The limit is applied before the filters: the answer is right exactly when, for every specified
    document that FlexSearch leaves out, it finds `limit` others that are as new. -/
theorem right_iff (flex : FlexSearch) (indexes : Indexes) (query : String) (opts : SearchOpts) :
    Right flex indexes query opts ↔
      ∀ m ∈ specified flex indexes query opts, m ∉ passed flex indexes query opts →
        opts.limit.getD 25 ≤
          ((passed flex indexes query opts).filter fun y => m.createdAt ≤ y.createdAt).length := by
  have hunique : Table.UniqueOn IndexableMessage.id ((indexes.selected opts).flatMap
      fun d => matching flex.fits query opts.tag d.docs) :=
    unique_flatMap (fun _ h => h.filter _) matching_subset
  rw [Right, search_eq]
  refine (isTop_top_iff (nodup_hits hunique) (nodup_hits unique_found)
    (map_subset _ passed_subset)).trans (forall_mem_map.trans ?_)
  refine forall₂_congr fun m hm => imp_congr (not_congr ?_) ?_
  · constructor
    · intro hmem
      obtain ⟨y, hy, heq⟩ := mem_map.mp hmem
      have hsame := Table.eq_of_key hunique (mem_of_mem_filter (passed_subset hy))
        (mem_of_mem_filter hm) (congrArg SearchHit.id heq)
      exact hsame ▸ hy
    · exact fun hmem => mem_map_of_mem hmem
  · rw [Covered, filter_map, length_map]
    rfl

/-- Every message matches, and the first ones of an index are found. -/
def firstOnes : FlexSearch where
  fits _ _ := true
  search docs query tag limit := (matching (fun _ _ => true) query tag docs).take limit
  subset _ _ _ _ _ hm := mem_of_mem_take hm
  nodup _ _ _ _ h := (h.filter _).sublist (take_sublist _ _)
  length _ _ _ _ := length_take

/-- A message, and before it one with a picture. -/
def general : Indexes where
  entries := [("general", { channelId := "general", docs :=
    [{ id := "m2", createdAt := 2 }, { id := "m1", createdAt := 1, hasAttachment := true }] })]
  keys := by decide
  unique := by decide

theorem not_right_picture : ¬ ∀ flex indexes query opts, Right flex indexes query opts := fun h =>
  absurd (h firstOnes general "hello" { hasAttachment := some true, limit := some 1 }).length
    (by decide)

end Meza.Client.Search
