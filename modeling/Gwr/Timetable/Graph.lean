import Mathlib.Logic.Relation
import Gwr.Timetable.Coverage

/-!
# The shape of the emitted graph

Every record id the converter writes is the id of a `RecordKey`: a graph node's name
with a role, a slot and a chunk. Per graph node the lowering loop emits load chunks, one
compute record and store chunks, and edges only from that node's load chunks to its
compute record and from its compute record to its store chunks.

Reading ids back (`decodeReversed_id`) gives each id a stage, `0` for loads, `1` for
compute records and `2` for stores, which every edge strictly increases: the edge
relation is acyclic and its paths have at most two edges, whatever the node names. The
same reading shows that record ids are pairwise distinct exactly when node names are.

## Main definitions

* `BlockIds` — the ids of the records lowered for one graph node
* `idStage` — the stage of an id
* `EdgeRel` — the edge relation of a timetable

## Main results

* `onnxToGwrTimetable_edges` — edges stay inside one node's block and chain at most twice
* `onnxToGwrTimetable_ids_nodup` — record ids are distinct exactly when node names are
-/

set_option autoImplicit false

namespace Gwr

/-! ### Keys and stages -/

namespace RecordKey

/-- The graph node a key belongs to. -/
def nodeName : RecordKey → String
  | .compute n | .load n _ _ | .store n _ _ => n

/-- The stage of a record in its node's pipeline: loads, then compute, then stores. -/
def stage : RecordKey → Nat
  | .load .. => 0
  | .compute _ => 1
  | .store .. => 2

end RecordKey

/-- The stage of an id, read back through the id grammar; `3` for a string that is no
record's id. -/
def idStage (id : String) : Nat :=
  ((decodeReversed id.toList.reverse).map RecordKey.stage).getD 3

@[simp] theorem idStage_id (k : RecordKey) : idStage k.id = k.stage := by
  unfold idStage
  rw [decodeReversed_id]
  rfl

/-! ### The ids of one block -/

theorem nodup_map_fst_nonemptySlots (names : List String) :
    ((nonemptySlots names).map Prod.fst).Nodup :=
  ((List.filter_sublist _).map _).nodup (by simpa using List.nodup_range names.length)

section Slots

variable {tensors : PyDict String TensorRecord} {tensorAddresses : PyDict String Int}
  {opType : String} {pe : Yaml} {sramBytes : Int}

theorem slotOps_ids {baseId tensorName : String} {recs : List TimetableNode}
    (h : slotOps tensors tensorAddresses baseId opType pe sramBytes tensorName = .ok recs) :
    (recs.map TimetableNode.id).Nodup ∧ ∀ r ∈ recs, ∃ c, r.id = withChunk baseId c := by
  simp only [slotOps, Except.bind_eq_ok] at h
  obtain ⟨_, -, _, -, h⟩ := h
  exact splitMemoryOp_ids h

/-- The records of a node's named slots, for the key constructor `mk` of their role:
pairwise distinct ids, each the id of `mk j c` for one of the slots `j`. -/
theorem slots_ids {mk : Nat → Option Nat → RecordKey} {baseId : Nat → String}
    (hid : ∀ j c, (mk j c).id = withChunk (baseId j) c)
    (hinj : ∀ j c j' c', mk j c = mk j' c' → j = j') :
    ∀ {slots : List (Nat × String)} {groups : List (List TimetableNode)},
      (slots.map Prod.fst).Nodup →
      List.Forall₂ (fun slot recs => slotOps tensors tensorAddresses (baseId slot.1) opType pe
        sramBytes slot.2 = .ok recs) slots groups →
      (groups.flatten.map TimetableNode.id).Nodup ∧
        ∀ r ∈ groups.flatten, ∃ j ∈ slots.map Prod.fst, ∃ c, r.id = (mk j c).id
  | [], [], _, .nil => by simp
  | (j, _) :: _, recs :: _, hnodup, .cons hrecs hgroups => by
    obtain ⟨hj, hnodup⟩ := List.nodup_cons.mp hnodup
    obtain ⟨hrecs_nodup, hrecs_ids⟩ := slotOps_ids hrecs
    obtain ⟨hgroups_nodup, hgroups_ids⟩ := slots_ids hid hinj hnodup hgroups
    have hrecs_ids' : ∀ r ∈ recs, ∃ c, r.id = (mk j c).id := fun r hr =>
      (hrecs_ids r hr).imp fun c hc => hc.trans (hid j c).symm
    refine ⟨?_, ?_⟩
    · rw [List.flatten_cons, List.map_append]
      refine List.nodup_append.mpr ⟨hrecs_nodup, hgroups_nodup, ?_⟩
      intro _ hx hx'
      obtain ⟨r, hr, rfl⟩ := List.mem_map.mp hx
      obtain ⟨r', hr', hrr'⟩ := List.mem_map.mp hx'
      obtain ⟨c, hc⟩ := hrecs_ids' r hr
      obtain ⟨j', hj', c', hc'⟩ := hgroups_ids r' hr'
      have := hinj _ _ _ _ (RecordKey.id_injective (hc.symm.trans (hrr'.symm.trans hc')))
      exact hj (this ▸ hj')
    · simp only [List.flatten_cons, List.mem_append, List.map_cons, List.mem_cons]
      rintro r (hr | hr)
      · obtain ⟨c, hc⟩ := hrecs_ids' r hr
        exact ⟨j, .inl rfl, c, hc⟩
      · obtain ⟨j', hj', c', hc'⟩ := hgroups_ids r hr
        exact ⟨j', .inr hj', c', hc'⟩

end Slots

/-- The ids of the records lowered for a graph node named `name`: load chunks carry load
keys of `name`, the compute record `<name>_compute`, store chunks store keys of `name`,
and no two records of the block share an id. -/
structure BlockIds (name : String) (b : Block) : Prop where
  loads : ∀ r ∈ b.loads.flatten, ∃ j c, r.id = (RecordKey.load name j c).id
  compute : b.compute.id = (RecordKey.compute name).id
  stores : ∀ r ∈ b.stores.flatten, ∃ j c, r.id = (RecordKey.store name j c).id
  nodup : (b.nodes.map TimetableNode.id).Nodup

namespace BlockIds

variable {name : String} {b : Block}

/-- Every record of the block has the id of a key of `name`. -/
theorem exists_key (h : BlockIds name b) {r : TimetableNode} (hr : r ∈ b.nodes) :
    ∃ k : RecordKey, k.nodeName = name ∧ r.id = k.id := by
  simp only [Block.nodes, List.mem_append, List.mem_singleton] at hr
  rcases hr with (hr | rfl) | hr
  · obtain ⟨j, c, hc⟩ := h.loads r hr
    exact ⟨.load name j c, rfl, hc⟩
  · exact ⟨.compute name, rfl, h.compute⟩
  · obtain ⟨j, c, hc⟩ := h.stores r hr
    exact ⟨.store name j c, rfl, hc⟩

/-- Each edge of the block joins two of its records, from a lower to a higher stage. -/
theorem edge (h : BlockIds name b) {e : TimetableEdge} (he : e ∈ b.edges) :
    e.kind = "data" ∧ e.fromId ∈ b.nodes.map TimetableNode.id ∧
      e.toId ∈ b.nodes.map TimetableNode.id ∧ idStage e.fromId < idStage e.toId ∧
      idStage e.toId ≤ 2 := by
  simp only [Block.edges, dataEdges, List.mem_append, List.mem_map] at he
  have hcompute : b.compute.id ∈ b.nodes.map TimetableNode.id :=
    List.mem_map_of_mem _ (by simp [Block.nodes])
  rcases he with ⟨r, hr, rfl⟩ | ⟨r, hr, rfl⟩
  · obtain ⟨j, c, hc⟩ := h.loads r hr
    refine ⟨rfl, List.mem_map_of_mem _ (by simp [Block.nodes, hr]), hcompute, ?_⟩
    simp [hc, h.compute, RecordKey.stage]
  · obtain ⟨j, c, hc⟩ := h.stores r hr
    refine ⟨rfl, hcompute, List.mem_map_of_mem _ (by simp [Block.nodes, hr]), ?_⟩
    simp [hc, h.compute, RecordKey.stage]

/-- The block has exactly one edge from each load chunk to its compute record and exactly
one from its compute record to each store chunk, and no other edge: its ids are distinct. -/
theorem count_edges (h : BlockIds name b) :
    (∀ r ∈ b.loads.flatten, b.edges.count ⟨r.id, computeId name, "data"⟩ = 1) ∧
    (∀ r ∈ b.stores.flatten, b.edges.count ⟨computeId name, r.id, "data"⟩ = 1) ∧
    b.edges.length = b.loads.flatten.length + b.stores.flatten.length := by
  have hc : b.compute.id = computeId name := h.compute
  have hnodup := h.nodup
  simp only [Block.nodes, List.map_append, List.map_singleton] at hnodup
  obtain ⟨hloads_compute, hstores, -⟩ := List.nodup_append.mp hnodup
  obtain ⟨hloads, -, hcompute⟩ := List.nodup_append.mp hloads_compute
  -- the load edges differ in their sources, the store edges in their targets, and no load
  -- has the compute record's id
  have hedges : b.edges.Nodup := by
    refine List.nodup_append.mpr ⟨List.Nodup.of_map TimetableEdge.fromId ?_,
      List.Nodup.of_map TimetableEdge.toId ?_, fun e he he' => ?_⟩
    · simpa [List.map_map, Function.comp_def] using hloads
    · simpa [List.map_map, Function.comp_def] using hstores
    · obtain ⟨r, hr, rfl⟩ := List.mem_map.mp he
      obtain ⟨_, -, he'⟩ := List.mem_map.mp he'
      exact hcompute (List.mem_map_of_mem _ hr)
        (List.mem_singleton.mpr (congrArg TimetableEdge.fromId he').symm)
  refine ⟨fun r hr => List.count_eq_one_of_mem hedges ?_,
    fun r hr => List.count_eq_one_of_mem hedges ?_, ?_⟩
  · rw [← hc]
    exact List.mem_append_left _ (List.mem_map.mpr ⟨r, hr, rfl⟩)
  · rw [← hc]
    exact List.mem_append_right _ (List.mem_map.mpr ⟨r, hr, rfl⟩)
  · rw [Block.edges, dataEdges, List.length_append, List.length_map, List.length_map]

end BlockIds

/-- The block lowered for a node has the ids `BlockIds` describes. -/
theorem LoweredAs.blockIds {tensors : PyDict String TensorRecord}
    {tensorAddresses : PyDict String Int} {platformConfig : Yaml} {peNames : List Yaml}
    {peIndex : Nat} {onnxNode : NodeProto} {b : Block}
    (h : LoweredAs tensors tensorAddresses platformConfig peNames peIndex onnxNode b) :
    BlockIds onnxNode.name b := by
  obtain ⟨hl_nodup, hl⟩ := slots_ids
    (fun j c => (rfl : (RecordKey.load onnxNode.name j c).id = withChunk (loadId onnxNode.name j) c))
    (fun _ _ _ _ e => (RecordKey.load.inj e).2.1) (nodup_map_fst_nonemptySlots _) h.loads_eq
  obtain ⟨hs_nodup, hs⟩ := slots_ids
    (fun j c => (rfl : (RecordKey.store onnxNode.name j c).id = withChunk (storeId onnxNode.name j) c))
    (fun _ _ _ _ e => (RecordKey.store.inj e).2.1) (nodup_map_fst_nonemptySlots _) h.stores_eq
  obtain ⟨numOps, dtype, -, hcompute⟩ := h.compute_eq
  have hloads : ∀ r ∈ b.loads.flatten, ∃ j c, r.id = (RecordKey.load onnxNode.name j c).id :=
    fun r hr => let ⟨j, _, hj⟩ := hl r hr; ⟨j, hj⟩
  have hstores : ∀ r ∈ b.stores.flatten, ∃ j c, r.id = (RecordKey.store onnxNode.name j c).id :=
    fun r hr => let ⟨j, _, hj⟩ := hs r hr; ⟨j, hj⟩
  have hcompute_id : b.compute.id = (RecordKey.compute onnxNode.name).id := by
    rw [hcompute]; rfl
  -- the three parts of the block lie at the stages 0, 1 and 2
  have hl_stage : ∀ x ∈ b.loads.flatten.map TimetableNode.id, idStage x = 0 := by
    intro x hx
    obtain ⟨r, hr, rfl⟩ := List.mem_map.mp hx
    obtain ⟨j, c, hc⟩ := hloads r hr
    rw [hc, idStage_id]
    rfl
  have hs_stage : ∀ x ∈ b.stores.flatten.map TimetableNode.id, idStage x = 2 := by
    intro x hx
    obtain ⟨r, hr, rfl⟩ := List.mem_map.mp hx
    obtain ⟨j, c, hc⟩ := hstores r hr
    rw [hc, idStage_id]
    rfl
  have hc_stage : idStage b.compute.id = 1 := by
    rw [hcompute_id, idStage_id]
    rfl
  refine ⟨hloads, hcompute_id, hstores, ?_⟩
  simp only [Block.nodes, List.map_append, List.map_singleton]
  refine List.nodup_append.mpr ⟨List.nodup_append.mpr ⟨hl_nodup, List.nodup_singleton _, ?_⟩,
    hs_nodup, ?_⟩
  · intro x hx hx'
    have := hl_stage x hx
    rw [List.mem_singleton.mp hx'] at this
    omega
  · intro x hx hx'
    have := hs_stage x hx'
    rcases List.mem_append.mp hx with hx | hx
    · have := hl_stage x hx
      omega
    · rw [List.mem_singleton.mp hx] at this
      omega

/-! ### The whole timetable -/

/-- `a → b` is an edge of the timetable. -/
def EdgeRel (tt : Timetable) (a b : String) : Prop :=
  ∃ e ∈ tt.edges, e.fromId = a ∧ e.toId = b

/-- Every edge of a run joins two of its records, from a lower to a higher stage. -/
theorem edges_of_blocks {onnxNodes : List NodeProto} {blocks : List Block} :
    List.Forall₂ (fun (onnxNode : NodeProto) b => BlockIds onnxNode.name b) onnxNodes blocks →
    ∀ e ∈ (blocks.map Block.edges).flatten, e.kind = "data" ∧
      e.fromId ∈ (blocks.map Block.nodes).flatten.map TimetableNode.id ∧
      e.toId ∈ (blocks.map Block.nodes).flatten.map TimetableNode.id ∧
      idStage e.fromId < idStage e.toId ∧ idStage e.toId ≤ 2
  | .nil => by simp
  | .cons hb hrest => by
    simp only [List.map_cons, List.flatten_cons, List.mem_append, List.map_append]
    rintro e (he | he)
    · obtain ⟨hkind, hfrom, hto, hstage⟩ := hb.edge he
      exact ⟨hkind, .inl hfrom, .inl hto, hstage⟩
    · obtain ⟨hkind, hfrom, hto, hstage⟩ := edges_of_blocks hrest e he
      exact ⟨hkind, .inr hfrom, .inr hto, hstage⟩

/-- Record ids over a run are pairwise distinct exactly when the node names are. -/
theorem nodup_ids_iff {onnxNodes : List NodeProto} {blocks : List Block} :
    List.Forall₂ (fun (onnxNode : NodeProto) b => BlockIds onnxNode.name b) onnxNodes blocks →
    (((blocks.map Block.nodes).flatten.map TimetableNode.id).Nodup ↔
      (onnxNodes.map NodeProto.name).Nodup)
  | .nil => by simp
  | @List.Forall₂.cons _ _ _ onnxNode b onnxNodes blocks hb hrest => by
    have hkeys : ∀ r ∈ (blocks.map Block.nodes).flatten,
        ∃ k : RecordKey, k.nodeName ∈ onnxNodes.map NodeProto.name ∧ r.id = k.id := by
      intro r hr
      obtain ⟨_, hnodes, hr⟩ := List.mem_flatten.mp hr
      obtain ⟨b', hb', rfl⟩ := List.mem_map.mp hnodes
      obtain ⟨node, hnode, hids⟩ := exists_of_forall₂_right hrest b' hb'
      obtain ⟨k, hk, hkr⟩ := hids.exists_key hr
      exact ⟨k, List.mem_map.mpr ⟨node, hnode, hk.symm⟩, hkr⟩
    have hcomputes : ∀ n ∈ onnxNodes.map NodeProto.name,
        computeId n ∈ (blocks.map Block.nodes).flatten.map TimetableNode.id := by
      intro n hn
      obtain ⟨node, hnode, rfl⟩ := List.mem_map.mp hn
      obtain ⟨b', hb', hids⟩ := exists_of_forall₂_left hrest node hnode
      exact List.mem_map.mpr ⟨b'.compute, List.mem_flatten.mpr ⟨b'.nodes, List.mem_map_of_mem _ hb',
        by simp [Block.nodes]⟩, hids.compute⟩
    have hdisjoint : (b.nodes.map TimetableNode.id).Disjoint
        ((blocks.map Block.nodes).flatten.map TimetableNode.id) ↔
        onnxNode.name ∉ onnxNodes.map NodeProto.name := by
      constructor
      · intro hdisj hmem
        have hcompute : b.compute.id = computeId onnxNode.name := hb.compute
        exact hdisj (List.mem_map_of_mem _ (by simp [Block.nodes] : b.compute ∈ b.nodes))
          (hcompute ▸ hcomputes _ hmem)
      · intro hname x hx hx'
        obtain ⟨r, hr, rfl⟩ := List.mem_map.mp hx
        obtain ⟨r', hr', hrr'⟩ := List.mem_map.mp hx'
        obtain ⟨k, hk, hkr⟩ := hb.exists_key hr
        obtain ⟨k', hk', hkr'⟩ := hkeys r' hr'
        have : k' = k := RecordKey.id_injective (hkr'.symm.trans (hrr'.trans hkr))
        exact hname (hk ▸ this ▸ hk')
    rw [List.map_cons, List.flatten_cons, List.map_append, List.nodup_append, nodup_ids_iff hrest,
      hdisjoint, List.map_cons, List.nodup_cons]
    simp only [hb.nodup, true_and]
    exact and_comm

/-- A run's blocks, matched with the graph's nodes, have the ids `BlockIds` describes. -/
theorem onnxToGwrTimetable_blocks {model : ModelProto} {platformConfig : Yaml}
    {tt : Timetable} (h : onnxToGwrTimetable model platformConfig = .ok tt) :
    ∃ blocks : List Block,
      List.Forall₂ (fun (onnxNode : NodeProto) b => BlockIds onnxNode.name b) model.graph.node
        blocks ∧
      tt.nodes = (blocks.map Block.nodes).flatten ∧ tt.edges = (blocks.map Block.edges).flatten := by
  obtain ⟨_, _, blocks, -, -, hblocks, rfl⟩ := onnxToGwrTimetable_eq_ok_iff.mp h
  refine ⟨blocks, ?_, rfl, rfl⟩
  rw [← List.enum_map_snd model.graph.node, List.forall₂_map_left_iff]
  exact hblocks.imp fun _ _ hb => hb.blockIds

/-- The edges of every run: each lies inside one graph node's block, which has exactly one
edge from each of its load chunks to its compute record and one from its compute record to
each of its store chunks, and no other; every edge has kind `data` and joins two emitted
records; the edge relation is acyclic and has no path of three edges, because load,
compute and store ids never coincide. -/
theorem onnxToGwrTimetable_edges {model : ModelProto} {platformConfig : Yaml} {tt : Timetable}
    (h : onnxToGwrTimetable model platformConfig = .ok tt) :
    (∃ blocks : List Block,
      List.Forall₂ (fun (onnxNode : NodeProto) b => BlockIds onnxNode.name b ∧
          (∀ r ∈ b.loads.flatten, b.edges.count ⟨r.id, computeId onnxNode.name, "data"⟩ = 1) ∧
          (∀ r ∈ b.stores.flatten, b.edges.count ⟨computeId onnxNode.name, r.id, "data"⟩ = 1) ∧
          b.edges.length = b.loads.flatten.length + b.stores.flatten.length)
        model.graph.node blocks ∧
      tt.nodes = (blocks.map Block.nodes).flatten ∧ tt.edges = (blocks.map Block.edges).flatten) ∧
    (∀ e ∈ tt.edges, e.kind = "data" ∧ e.fromId ∈ tt.nodes.map TimetableNode.id ∧
      e.toId ∈ tt.nodes.map TimetableNode.id) ∧
    (∀ a, ¬ Relation.TransGen (EdgeRel tt) a a) ∧
    (∀ a b c d, EdgeRel tt a b → EdgeRel tt b c → ¬ EdgeRel tt c d) ∧
    (∀ n n' j c, computeId n ≠ (RecordKey.load n' j c).id ∧
      computeId n ≠ (RecordKey.store n' j c).id) ∧
    (∀ n n' j j' c c', (RecordKey.load n j c).id ≠ (RecordKey.store n' j' c').id) := by
  obtain ⟨blocks, hblocks, hnodes, hedges⟩ := onnxToGwrTimetable_blocks h
  have hedge := edges_of_blocks hblocks
  rw [← hnodes, ← hedges] at hedge
  -- every edge climbs one stage or more, and no stage is above `2`
  have hrel : ∀ a b, EdgeRel tt a b → idStage a < idStage b ∧ idStage b ≤ 2 := by
    rintro a b ⟨e, he, rfl, rfl⟩
    exact (hedge e he).2.2.2
  have htrans : ∀ a b, Relation.TransGen (EdgeRel tt) a b → idStage a < idStage b := by
    intro a b hab
    induction hab with
    | single hab => exact (hrel _ _ hab).1
    | tail _ hbc ih => exact ih.trans (hrel _ _ hbc).1
  refine ⟨⟨blocks, hblocks.imp fun _ _ hb => ⟨hb, hb.count_edges⟩, hnodes, hedges⟩,
    fun e he => ⟨(hedge e he).1, (hedge e he).2.1,
    (hedge e he).2.2.1⟩, fun a haa => lt_irrefl _ (htrans a a haa), ?_, ?_, ?_⟩
  · intro a b c d hab hbc hcd
    have := hrel a b hab
    have := hrel b c hbc
    have := hrel c d hcd
    omega
  · intro n n' j c
    exact ⟨fun e => (nomatch RecordKey.id_injective
        (show (RecordKey.compute n).id = (RecordKey.load n' j c).id from e)),
      fun e => nomatch RecordKey.id_injective
        (show (RecordKey.compute n).id = (RecordKey.store n' j c).id from e)⟩
  · intro n n' j j' c c' e
    exact nomatch RecordKey.id_injective e

theorem edges_chainModel :
    onnxToGwrTimetable chainModel smallSramPlatform = .ok chainTimetable ∧
    (∃ blocks : List Block,
      List.Forall₂ (fun (onnxNode : NodeProto) b => BlockIds onnxNode.name b ∧
          (∀ r ∈ b.loads.flatten, b.edges.count ⟨r.id, computeId onnxNode.name, "data"⟩ = 1) ∧
          (∀ r ∈ b.stores.flatten, b.edges.count ⟨computeId onnxNode.name, r.id, "data"⟩ = 1) ∧
          b.edges.length = b.loads.flatten.length + b.stores.flatten.length)
        chainModel.graph.node blocks ∧
      chainTimetable.nodes = (blocks.map Block.nodes).flatten ∧
      chainTimetable.edges = (blocks.map Block.edges).flatten) ∧
    (∀ e ∈ chainTimetable.edges, e.kind = "data" ∧
      e.fromId ∈ chainTimetable.nodes.map TimetableNode.id ∧
      e.toId ∈ chainTimetable.nodes.map TimetableNode.id) ∧
    (∀ a, ¬ Relation.TransGen (EdgeRel chainTimetable) a a) ∧
    (∀ a b c d, EdgeRel chainTimetable a b → EdgeRel chainTimetable b c →
      ¬ EdgeRel chainTimetable c d) ∧
    (∀ n n' j c, computeId n ≠ (RecordKey.load n' j c).id ∧
      computeId n ≠ (RecordKey.store n' j c).id) ∧
    (∀ n n' j j' c c', (RecordKey.load n j c).id ≠ (RecordKey.store n' j' c').id) :=
  have hconv : onnxToGwrTimetable chainModel smallSramPlatform = .ok chainTimetable := rfl
  ⟨hconv, onnxToGwrTimetable_edges hconv⟩

/-- Two graph nodes, both named `n`. -/
def repeatedNameModel : ModelProto :=
  ⟨⟨[⟨"n", "Relu", [], []⟩, ⟨"n", "Relu", [], []⟩], [], [], [], []⟩⟩

/-- Record ids are pairwise distinct exactly when the graph's node names are; the id
format is injective over arbitrary names, yet nothing rejects a repeated node name, whose
`<name>_compute` id is then emitted twice. -/
theorem onnxToGwrTimetable_ids_nodup :
    (∀ (model : ModelProto) (platformConfig : Yaml) (tt : Timetable),
      onnxToGwrTimetable model platformConfig = .ok tt →
      ((tt.nodes.map TimetableNode.id).Nodup ↔ (model.graph.node.map NodeProto.name).Nodup)) ∧
    Function.Injective RecordKey.id ∧
    ∃ (model : ModelProto) (platformConfig : Yaml) (tt : Timetable) (name : String),
      onnxToGwrTimetable model platformConfig = .ok tt ∧
      2 ≤ (model.graph.node.map NodeProto.name).count name ∧
      2 ≤ (tt.nodes.map TimetableNode.id).count (computeId name) := by
  refine ⟨fun model platformConfig tt h => ?_, RecordKey.id_injective, repeatedNameModel,
    defaultPePlatform, ⟨[.compute "n_compute" "mul" (.str "pe0") "fp32" 1,
      .compute "n_compute" "mul" (.str "pe0") "fp32" 1], []⟩, "n", rfl, by decide, by decide⟩
  obtain ⟨blocks, hblocks, hnodes, -⟩ := onnxToGwrTimetable_blocks h
  rw [hnodes]
  exact nodup_ids_iff hblocks

end Gwr
