import Mathlib.Data.List.Count
import Gwr.Platform.Wiring

/-!
# The entities of a generated platform

`build_platform` defines one fabric, a processing element at each `PeIdGen` position, the
configured L1 and L2 caches of each of them and an HBM per `HbmIdGen` id, each under a
`name`: `create_name(prefix, column, row)` for a PE or a cache, `hbm<i>` for an HBM. The
connections refer to them as `pe.<name>`, `cache.<name>` and `mem.<name>`.

For every argument set on which `build_platform` returns, whatever the grid and the number
of HBMs, no two entities share a name: `str` of an integer has no underscore, so
`create_name` is injective, and distinct generator ids give distinct positions for every
non-zero number of rows, negative ones included. And the connections name exactly the
entities the platform defines: each PE once, at the head of its chain, each cache twice,
between its neighbours in the chain, and each HBM once.

## Main definitions

* `Entity` — what the generator defines, and `Entity.name`, the name it writes for it
* `platformEntities` — the entities of a platform, section by section
* `platformEntityNames` — the names a reader finds in a platform's sections

## Main results

* `Entity.name_injective` — distinct entities have distinct names
* `platformEntityNames_buildPlatform` — a generated platform defines `platformEntities`
* `platformEntityNames_nodup` — no two entities of a generated platform share a name
* `connectionEndpoints_count` — how often the connections name each entity
-/

set_option autoImplicit false

namespace Gwr

/-! ### Names -/

/-- `str(n)` has no underscore. -/
theorem underscore_not_mem_intToString (n : Int) : '_' ∉ (toString n).data := by
  cases n with
  | ofNat m => exact not_mem_toDigits '_' rfl m
  | negSucc m =>
    rw [intToString_data_negSucc]
    exact List.not_mem_cons_of_ne_of_not_mem (by decide) (not_mem_toDigits '_' rfl _)

theorem createName_data (namePrefix : String) (column row : Int) :
    (createName namePrefix column row).data =
      namePrefix.data ++ '_' :: ((toString column).data ++ '_' :: (toString row).data) := by
  simp only [createName, String.data_append, List.append_assoc]
  rfl

/-- Names of one prefix are equal only at the same position. -/
theorem createName_injective {namePrefix : String} {column row column' row' : Int}
    (h : createName namePrefix column row = createName namePrefix column' row') :
    column = column' ∧ row = row' := by
  have hdata := congrArg String.data h
  rw [createName_data, createName_data, List.append_cancel_left_eq, List.cons_inj_right,
    List.append_cons_inj_of_not_mem (underscore_not_mem_intToString column)
      (underscore_not_mem_intToString row)] at hdata
  exact ⟨intToString_injective (String.ext hdata.1), intToString_injective (String.ext hdata.2.2)⟩

/-- What `build_platform` defines: the fabric, the PE or the L1 or L2 cache at a grid
position, or HBM `i`. -/
inductive Entity where
  | fabric
  | pe (column row : Int)
  | l1 (column row : Int)
  | l2 (column row : Int)
  | hbm (index : Nat)
  deriving DecidableEq

namespace Entity

/-- The `name` the generator writes for an entity. -/
def name : Entity → String
  | fabric => fabricName
  | pe column row => createName "pe" column row
  | l1 column row => createName "l1" column row
  | l2 column row => createName "l2" column row
  | hbm i => "hbm" ++ toString i

/-- The first two characters of an entity's name, which tell its kind. -/
def tag : Entity → List Char
  | fabric => ['f', 'a']
  | pe .. => ['p', 'e']
  | l1 .. => ['l', '1']
  | l2 .. => ['l', '2']
  | hbm _ => ['h', 'b']

theorem take_name (e : Entity) : e.name.data.take 2 = e.tag := by
  cases e <;> rfl

/-- Distinct entities have distinct names. -/
theorem name_injective : Function.Injective name := by
  intro e e' h
  have htag : e.tag = e'.tag := by rw [← take_name, ← take_name, h]
  cases e <;> cases e' <;> simp only [tag, name] at htag h <;>
    first
    | exact absurd htag (by decide)
    | rfl
    | obtain ⟨rfl, rfl⟩ := createName_injective h; rfl
    | exact congrArg hbm (toString_injective (string_append_injective _ h))

end Entity

/-! ### Positions -/

/-- `(id // R, id % R)` determines `id`, for every `R ≠ 0`. -/
theorem gridPosition_injective {numRows id id' : Int} {position : Int × Int}
    (h : gridPosition numRows id = .ok position) (h' : gridPosition numRows id' = .ok position) :
    id = id' := by
  unfold gridPosition at h h'
  split at h
  · cases h
  · rw [if_neg ‹_›] at h'
    cases h
    obtain ⟨hdiv, hmod⟩ := Prod.mk.inj (Except.ok.inj h')
    calc id = id.fmod numRows + numRows * id.fdiv numRows := (Int.fmod_add_fdiv _ _).symm
      _ = id'.fmod numRows + numRows * id'.fdiv numRows := by rw [hdiv, hmod]
      _ = id' := Int.fmod_add_fdiv _ _

/-- `PeIdGen` yields each position at most once, for every number of rows. -/
theorem peIdGen_nodup {args : Args} {pes : List (Int × Int)} (h : peIdGen args = .ok pes) :
    pes.Nodup :=
  (List.rel_nodup (r := fun id position => gridPosition args.numRows id = .ok position)
      ⟨fun _ _ _ => gridPosition_injective, fun _ _ _ h h' => Except.ok.inj (h.symm.trans h')⟩
      (Except.mapM_eq_ok_iff.mp h)).mp
    ((List.nodup_range _).map fun _ _ => Int.ofNat.inj)

/-! ### The entities of a platform -/

/-- The caches configured at the PE at `p`: its L1 cache, then its L2 cache. -/
def positionCacheEntities (args : Args) (p : Int × Int) : List Entity :=
  (if args.l1Kib ≠ 0 then [.l1 p.1 p.2] else []) ++ (if args.l2Kib ≠ 0 then [.l2 p.1 p.2] else [])

@[simp] theorem mem_positionCacheEntities {args : Args} {p : Int × Int} {e : Entity} :
    e ∈ positionCacheEntities args p ↔
      (args.l1Kib ≠ 0 ∧ e = .l1 p.1 p.2) ∨ (args.l2Kib ≠ 0 ∧ e = .l2 p.1 p.2) := by
  simp [positionCacheEntities]

/-- The entities `build_platform` defines for PEs at `pes`, in the order of its sections:
the fabric, the PEs, their caches, the HBMs. -/
def platformEntities (args : Args) (pes : List (Int × Int)) : List Entity :=
  .fabric :: (pes.map (fun p => .pe p.1 p.2) ++ pes.flatMap (positionCacheEntities args) ++
    (List.range args.numHbms.toNat).map .hbm)

/-- The names a reader finds in a platform's `fabrics`, `processing_elements`, `caches` and
`memories` sections, in this order. -/
def platformEntityNames (platform : Yaml) : List String :=
  ["fabrics", "processing_elements", "caches", "memories"].flatMap fun key =>
    entityNames (platformSection platform key)

/-- At distinct positions the generator defines distinct entities. -/
theorem platformEntities_nodup (args : Args) {pes : List (Int × Int)} (hpes : pes.Nodup) :
    (platformEntities args pes).Nodup := by
  have hcaches : (pes.flatMap (positionCacheEntities args)).Nodup := by
    refine List.nodup_flatMap.mpr ⟨fun p _ => ?_, hpes.imp fun {p q} hpq => ?_⟩
    · unfold positionCacheEntities
      split_ifs <;> simp
    · rw [Function.onFun, List.disjoint_left]
      intro e hp hq
      simp only [mem_positionCacheEntities] at hp hq
      rcases hp with ⟨-, rfl⟩ | ⟨-, rfl⟩ <;> rcases hq with ⟨-, h⟩ | ⟨-, h⟩ <;>
        first
        | cases h
        | exact hpq (Prod.ext (Entity.l1.inj h).1 (Entity.l1.inj h).2)
        | exact hpq (Prod.ext (Entity.l2.inj h).1 (Entity.l2.inj h).2)
  have hpe : (pes.map fun p => Entity.pe p.1 p.2).Nodup :=
    hpes.map fun p q h => Prod.ext (Entity.pe.inj h).1 (Entity.pe.inj h).2
  have hhbm : ((List.range args.numHbms.toNat).map Entity.hbm).Nodup :=
    (List.nodup_range _).map fun _ _ => Entity.hbm.inj
  refine List.nodup_cons.mpr ⟨by simp, (hpe.append hcaches ?_).append hhbm ?_⟩
  · -- a PE is no cache
    simp only [List.disjoint_left, List.mem_map, List.mem_flatMap, mem_positionCacheEntities]
    rintro _ ⟨p, -, rfl⟩ ⟨q, -, ⟨-, h⟩ | ⟨-, h⟩⟩ <;> cases h
  · -- and neither is an HBM
    simp only [List.disjoint_left, List.mem_append, List.mem_map, List.mem_flatMap,
      mem_positionCacheEntities]
    rintro _ (⟨p, -, rfl⟩ | ⟨q, -, ⟨-, rfl⟩ | ⟨-, rfl⟩⟩) ⟨i, -, h⟩ <;> cases h

/-! ### The sections' names -/

section Sections

variable {args : Args} {pes : List (Int × Int)}

/-- A cache level writes its cache's name when it is configured, and nothing otherwise. -/
theorem filterMap_entryName_levelCache {name : String} {kib bytesPerCycle numWays latency : Int}
    {caches : List Yaml} (h : levelCache name kib bytesPerCycle numWays latency = .ok caches) :
    caches.filterMap entryName = if kib ≠ 0 then [name] else [] := by
  unfold levelCache at h
  split_ifs at h ⊢
  · cases hc : buildCache name kib bytesPerCycle numWays latency with
    | error e => rw [hc] at h; cases h
    | ok cache => rw [hc] at h; cases h; simp [entryName_of_buildCache hc]
  · cases h
    rfl

/-- The caches written at a PE position are named after its configured caches. -/
theorem filterMap_entryName_positionCaches {column row : Int} {caches : List Yaml}
    (h : positionCaches args column row = .ok caches) :
    caches.filterMap entryName = (positionCacheEntities args (column, row)).map Entity.name := by
  simp only [positionCaches, Except.bind_eq_ok, Except.pure_eq_ok] at h
  obtain ⟨l1, hl1, l2, hl2, rfl⟩ := h
  rw [List.filterMap_append, filterMap_entryName_levelCache hl1,
    filterMap_entryName_levelCache hl2, positionCacheEntities, List.map_append]
  split_ifs <;> rfl

/-- The caches section names the configured caches of every PE position, in order. -/
theorem entityNames_buildCaches {caches : Yaml} (hpes : peIdGen args = .ok pes)
    (h : buildCaches args = .ok caches) :
    entityNames caches = (pes.flatMap (positionCacheEntities args)).map Entity.name := by
  unfold buildCaches at h
  split at h
  · rename_i hnone
    cases h
    have hnil : ∀ p, positionCacheEntities args p = [] := fun p => by
      simp [positionCacheEntities, hnone]
    simp [hnil, entityNames, sectionItems]
  · simp only [hpes, Except.bind_eq_ok, Except.pure_eq_ok, Except.mapM_eq_ok_iff] at h
    obtain ⟨-, -, _, hw, css, hcss, rfl⟩ := h
    cases hw
    rw [entityNames, sectionItems, List.filterMap_flatten, List.map_flatMap]
    clear hpes
    induction hcss with
    | nil => rfl
    | cons hpos _ ih =>
      rw [List.map_cons, List.flatten_cons, List.flatMap_cons, ih,
        filterMap_entryName_positionCaches hpos]

/-- A generated platform's sections define exactly `platformEntities`, in order. -/
theorem platformEntityNames_buildPlatform {platform : Yaml}
    (h : buildPlatform args = .ok platform) :
    ∃ pes, peIdGen args = .ok pes ∧
      platformEntityNames platform = (platformEntities args pes).map Entity.name := by
  obtain ⟨processingElements, -, caches, hpe, -, hcaches, rfl⟩ := buildPlatform_eq_ok h
  obtain ⟨pes, hpes⟩ : ∃ pes, peIdGen args = .ok pes := by
    simp only [buildProcessingElements, Except.bind_eq_ok] at hpe
    exact hpe.imp fun _ h => h.1
  refine ⟨pes, hpes, ?_⟩
  change [fabricName] ++ (entityNames processingElements ++
    (entityNames caches ++ (entityNames (buildMemories args) ++ []))) = _
  rw [entityNames_processingElements hpes hpe, entityNames_buildCaches hpes hcaches,
    entityNames_buildMemories]
  simp [platformEntities, Entity.name, Function.comp_def]

end Sections

/-- No two entities of a generated platform share a name: the fabric, the PEs, the caches
and the memories together, on every argument set for which `build_platform` returns. -/
theorem platformEntityNames_nodup {args : Args} {platform : Yaml}
    (h : buildPlatform args = .ok platform) : (platformEntityNames platform).Nodup := by
  obtain ⟨pes, hpes, heq⟩ := platformEntityNames_buildPlatform h
  rw [heq]
  exact (platformEntities_nodup args (peIdGen_nodup hpes)).map Entity.name_injective

/-- The platform of the default arguments names each of its entities once. -/
theorem platformEntityNames_nodup_defaultArgs :
    ∃ platform, buildPlatform defaultArgs = .ok platform ∧
      (platformEntityNames platform).Nodup := by
  obtain ⟨platform, h⟩ : ∃ platform, buildPlatform defaultArgs = .ok platform := ⟨_, rfl⟩
  exact ⟨platform, h, platformEntityNames_nodup h⟩

/-! ### What the connections name -/

/-- The ends of a chain's connections: its first and last entity once, each inner entity
twice. -/
theorem chainEnds_eq (z : String) : ∀ (x : String) (l : List String),
    (chainConnections (x :: (l ++ [z]))).flatMap connectEnds =
      x :: ((l.flatMap fun y => [y, y]) ++ [z])
  | x, [] => rfl
  | x, y :: l => by
    rw [List.cons_append, chainConnections_cons_cons, List.flatMap_cons, chainEnds_eq z y l,
      connectEnds_connection]
    simp

theorem count_flatMap_pair {α : Type} [BEq α] (l : List α) (a : α) :
    (l.flatMap fun y => [y, y]).count a = 2 * l.count a := by
  induction l with
  | nil => rfl
  | cons y l ih =>
    simp only [List.flatMap_cons, List.count_append, ih, List.count_cons, List.count_nil]
    omega

/-- Counting in a concatenation of blocks, block by block. -/
theorem count_flatMap_congr {α β γ : Type} [BEq β] [BEq γ] {l : List α} {f : α → List β}
    {g : α → List γ} {b : β} {c : γ} (h : ∀ x ∈ l, (f x).count b = (g x).count c) :
    (l.flatMap f).count b = (l.flatMap g).count c := by
  rw [List.count_flatMap, List.count_flatMap]
  exact congrArg List.sum (List.map_congr_left h)

section Connections

variable {args : Args}

/-- The endpoints of the connections: along each PE's chain the PE, each configured cache
twice and the PE's port, then each HBM and its port. -/
theorem connectionEndpoints_buildConnections {connections : Yaml}
    (h : buildConnections args = .ok connections) :
    ∃ pes hbms : List (Int × Int), peIdGen args = .ok pes ∧ hbmIdGen args = .ok hbms ∧
      connectionEndpoints connections = List.map Endpoint.toString
        ((pes.flatMap fun p => Endpoint.pe (Entity.pe p.1 p.2).name ::
            (((((positionCacheEntities args p).map Entity.name).map Endpoint.cache).flatMap
              fun y => [y, y]) ++ [.fabric p.1 p.2])) ++
          hbms.enum.flatMap fun e => [.mem (Entity.hbm e.1).name, .fabric e.2.1 e.2.2]) := by
  simp only [buildConnections, Except.bind_eq_ok, Except.pure_eq_ok] at h
  obtain ⟨pes, hpes, hbms, hhbms, rfl⟩ := h
  refine ⟨pes, hbms, hpes, hhbms, ?_⟩
  have hchain : ∀ p : Int × Int, peChain args p.1 p.2 =
      Endpoint.toString (.pe (Entity.pe p.1 p.2).name) ::
        ((((positionCacheEntities args p).map Entity.name).map fun n =>
          Endpoint.toString (.cache n)) ++
          [Endpoint.toString (.fabric p.1 p.2)]) := by
    intro p
    unfold peChain positionCacheEntities
    split_ifs <;> rfl
  have hmem : ∀ i : Nat, "mem.hbm" ++ toString i = Endpoint.toString (.mem (Entity.hbm i).name) :=
    fun i => by rw [Endpoint.toString, Entity.name, ← String.append_assoc]; rfl
  simp only [connectionEndpoints, sectionItems, List.flatMap_append, List.flatMap_assoc, hchain,
    chainEnds_eq, List.map_append, List.map_flatMap, List.flatMap_map, List.map_cons,
    List.map_nil, connectEnds_connection, hmem]
  rfl

/-- Counting an endpoint's text is counting the endpoint. -/
theorem count_map_toString (l : List Endpoint) (e : Endpoint) :
    (l.map Endpoint.toString).count e.toString = l.count e :=
  List.count_map_of_injective l _ Endpoint.toString_injective e

/-- The sections `build_platform` assembles: the connections name each PE once, each cache
twice and each HBM once. -/
theorem connectionEndpoints_count_sections {processingElements connections caches : Yaml}
    (hpe : buildProcessingElements args (buildMemoryMaps args) (buildPeConfig args) =
      .ok processingElements)
    (hconn : buildConnections args = .ok connections) (hcaches : buildCaches args = .ok caches)
    (name : String) :
    (connectionEndpoints connections).count ("pe." ++ name) =
        (entityNames processingElements).count name ∧
      (connectionEndpoints connections).count ("cache." ++ name) =
        2 * (entityNames caches).count name ∧
      (connectionEndpoints connections).count ("mem." ++ name) =
        (entityNames (buildMemories args)).count name := by
  obtain ⟨pes, hbms, hpes, hhbms, hends⟩ := connectionEndpoints_buildConnections hconn
  rw [hends, entityNames_processingElements hpes hpe, entityNames_buildCaches hpes hcaches,
    entityNames_buildMemories, ← hbmIdGen_length hhbms, ← List.enum_map_fst, List.map_map]
  refine ⟨?_, ?_, ?_⟩
  · -- a PE is named at the head of its own chain only
    rw [show "pe." ++ name = (Endpoint.pe name).toString from rfl, count_map_toString,
      List.count_append, List.count_eq_zero_of_not_mem (l := hbms.enum.flatMap _) (by simp),
      add_zero, List.map_eq_flatMap]
    refine count_flatMap_congr fun p _ => ?_
    rw [List.count_cons, List.count_append, List.count_eq_zero_of_not_mem (by simp),
      List.count_eq_zero_of_not_mem (by simp)]
    simp [Entity.name, List.count_singleton']
  · -- a cache is named on both sides of it in its chain
    rw [show "cache." ++ name = (Endpoint.cache name).toString from rfl, count_map_toString,
      List.count_append, List.count_eq_zero_of_not_mem (l := hbms.enum.flatMap _) (by simp),
      add_zero, List.map_flatMap,
      List.count_flatMap, List.count_flatMap, ← List.sum_map_mul_left]
    refine congrArg List.sum (List.map_congr_left fun p _ => ?_)
    rw [Function.comp_apply, List.count_cons, List.count_append, count_flatMap_pair,
      List.count_eq_zero_of_not_mem (l := [_]) (by simp),
      List.count_map_of_injective _ _ fun _ _ => Endpoint.cache.inj]
    simp
  · -- an HBM is named once, beside its port
    rw [show "mem." ++ name = (Endpoint.mem name).toString from rfl, count_map_toString,
      List.count_append, List.count_eq_zero_of_not_mem (by simp), zero_add, List.map_eq_flatMap]
    refine count_flatMap_congr fun e _ => ?_
    simp [List.count_cons, Entity.name]

end Connections

/-- The connections of a generated platform name each PE once, each cache twice, on both
sides of it along its PE's chain, and each HBM once; no other `pe.`, `cache.` or `mem.`
endpoint occurs. This holds on every argument set for which `build_platform` returns. -/
theorem connectionEndpoints_count {args : Args} {platform : Yaml}
    (h : buildPlatform args = .ok platform) (name : String) :
    (connectionEndpoints (platformSection platform "connections")).count ("pe." ++ name) =
        (entityNames (platformSection platform "processing_elements")).count name ∧
      (connectionEndpoints (platformSection platform "connections")).count ("cache." ++ name) =
        2 * (entityNames (platformSection platform "caches")).count name ∧
      (connectionEndpoints (platformSection platform "connections")).count ("mem." ++ name) =
        (entityNames (platformSection platform "memories")).count name := by
  obtain ⟨processingElements, connections, caches, hpe, hconn, hcaches, rfl⟩ :=
    buildPlatform_eq_ok h
  exact connectionEndpoints_count_sections hpe hconn hcaches name

/-- On the default arguments the connections name PE `pe_0_0` once. -/
theorem connectionEndpoints_count_defaultArgs :
    ∃ platform, buildPlatform defaultArgs = .ok platform ∧
      (connectionEndpoints (platformSection platform "connections")).count ("pe." ++ "pe_0_0") =
          (entityNames (platformSection platform "processing_elements")).count "pe_0_0" ∧
        (connectionEndpoints (platformSection platform "connections")).count
            ("cache." ++ "pe_0_0") =
          2 * (entityNames (platformSection platform "caches")).count "pe_0_0" ∧
        (connectionEndpoints (platformSection platform "connections")).count
            ("mem." ++ "pe_0_0") =
          (entityNames (platformSection platform "memories")).count "pe_0_0" := by
  obtain ⟨platform, h⟩ : ∃ platform, buildPlatform defaultArgs = .ok platform := ⟨_, rfl⟩
  exact ⟨platform, h, connectionEndpoints_count h "pe_0_0"⟩

end Gwr
