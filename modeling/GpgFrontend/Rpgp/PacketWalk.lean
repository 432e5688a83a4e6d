import GpgFrontend.Base.Hex

/-!
# The walk over a packet stream

- `readFraming`: the framing of one packet, over all its partial lengths.
- `walkPackets`: the packets of a stream, and those of the streams they hold compressed. The walk
  keeps a list of the streams it decompressed, which the source drops.
-/

namespace GpgFrontend.Rpgp

def maxBlockSize : Nat := 64 * 1024 * 1024
def maxDepth : Nat := 8
def maxRawBytes : Nat := 64 * 1024
def maxRawTotal : Nat := 4 * 1024 * 1024

inductive PacketLength where
  | fixed (n : Nat)
  | indeterminate
  | partialChunk (n : Nat)

def PacketLength.name : PacketLength → String
  | .fixed _ => "fixed"
  | .partialChunk _ => "partial"
  | .indeterminate => "indeterminate"

inductive PacketHeader where
  | old (tag : UInt8) (length : PacketLength)
  | new (tag : UInt8) (length : PacketLength)

namespace PacketHeader

def tag : PacketHeader → UInt8
  | old tag _ => tag
  | new tag _ => tag

def packetLength : PacketHeader → PacketLength
  | old _ length => length
  | new _ length => length

def version : PacketHeader → String
  | old _ _ => "old"
  | new _ _ => "new"

end PacketHeader

/-- `Tag::CompressedData`. -/
def compressedTag : UInt8 := 8

/-- What a decompressing reader yields, and the failure it ends with, if any. -/
structure Inflated where
  bytes : Bytes
  failure : Option String

/-- `take` and `read_to_end`: a failure past the limit is not met, and what was read before one is
kept. -/
def Inflated.readUpTo (inflated : Inflated) (limit : Nat) : Except String Bytes :=
  let bytes := inflated.bytes.take limit
  match if limit ≤ inflated.bytes.length then none else inflated.failure with
  | some error => if bytes.isEmpty then .error error else .ok bytes
  | none => .ok bytes

/-- The readers of the OpenPGP library; one that succeeds takes at least an octet. -/
structure FramingReader (κ : Type) where
  header : Bytes → Except String (PacketHeader × Bytes)
  length : Bytes → Except String (PacketLength × Bytes)
  compressedData : PacketHeader → Bytes → Except String κ
  decompress : κ → Except String Inflated
  header_shortens : ∀ {data found cursor}, header data = .ok (found, cursor) →
    cursor.length < data.length
  length_shortens : ∀ {data found cursor}, length data = .ok (found, cursor) →
    cursor.length < data.length

/-! ## The framing of a packet -/

structure Framing where
  header : PacketHeader
  headerLength : Nat
  bodyLength : Nat
  body : Bytes
  truncated : Bool

structure BodyScan where
  consumed : Nat
  body : Bytes
  truncated : Bool

section

variable {κ : Type} (reader : FramingReader κ)

def bodyLoop (cursor : Bytes) (length : PacketLength) (body : Bytes) (consumed : Nat) : BodyScan :=
  match length with
  | .fixed n =>
    let available := min cursor.length n
    ⟨consumed + available, body ++ cursor.take available, available < n⟩
  | .indeterminate => ⟨consumed + cursor.length, body ++ cursor, false⟩
  | .partialChunk n =>
    let available := min cursor.length n
    let body := body ++ cursor.take available
    let rest := cursor.drop available
    if available < n then ⟨consumed + available, body, true⟩
    else
      -- the length of the next chunk is on the wire, but not of the body
      match _hnext : reader.length rest with
      | .ok (next, cursor') =>
        bodyLoop cursor' next body (consumed + available + (rest.length - cursor'.length))
      | .error _ => ⟨consumed + available, body, true⟩
termination_by cursor.length
decreasing_by
  have hshort := reader.length_shortens _hnext
  rw [List.length_drop] at hshort
  omega

def readFraming (data : Bytes) : Except String Framing :=
  match reader.header data with
  | .error error => .error error
  | .ok (header, cursor) =>
    let scan := bodyLoop reader cursor header.packetLength [] 0
    .ok ⟨header, data.length - cursor.length, scan.consumed, scan.body, scan.truncated⟩

end

/-! ## The walk -/

structure PacketNode where
  tag : UInt8
  offset : Nat
  headerVersion : String
  headerLength : Nat
  bodyLength : Nat
  lengthType : String
  raw : String
  rawTruncated : Bool
  children : List PacketNode
  error : Option String

def truncatedBody : String := "the packet body is truncated"

def describeFraming (framing : Framing) (offset : Nat) : PacketNode where
  tag := framing.header.tag
  offset := offset
  headerVersion := framing.header.version
  headerLength := framing.headerLength
  bodyLength := framing.bodyLength
  lengthType := framing.header.packetLength.name
  raw := ""
  rawTruncated := false
  children := []
  error := if framing.truncated then some truncatedBody else none

/-- A container with what is inside it; a note on that is second to an error of its own. -/
def PacketNode.holding (node : PacketNode) (children : List PacketNode) (note : Option String) :
    PacketNode :=
  { node with
    children := children
    error := node.error.or note }

structure Budget where
  decompressed : Nat
  raw : Nat
  rawSpent : Bool

/-- How much of a packet is handed over. -/
def shownOf (wire : Bytes) (budget : Budget) : Nat := min (min wire.length maxRawBytes) budget.raw

def attachRaw (node : PacketNode) (wire : Bytes) (budget : Budget) : PacketNode :=
  { node with
    raw := String.ofList (toHex (wire.take (shownOf wire budget)))
    rawTruncated := shownOf wire budget < wire.length }

/-- The budget after `attach_raw`. -/
def Budget.afterRaw (budget : Budget) (wire : Bytes) : Budget :=
  { budget with
    raw := budget.raw - shownOf wire budget
    rawSpent := budget.rawSpent || shownOf wire budget < min wire.length maxRawBytes }

/-- The nodes and the note of a walk, the budget it leaves, and the streams it decompressed. -/
structure Walk where
  nodes : List PacketNode
  note : Option String
  budget : Budget
  payloads : List Bytes

namespace Walk

def start (budget : Budget) : Walk := ⟨[], none, budget, []⟩

def failed (budget : Budget) (error : String) : Walk := ⟨[], some error, budget, []⟩

/-- A node joins the walk, with what is inside it. -/
def push (walk : Walk) (node : PacketNode) (inner : Walk) : Walk :=
  { walk with
    nodes := walk.nodes ++ [node.holding inner.nodes inner.note]
    budget := inner.budget
    payloads := walk.payloads ++ inner.payloads }

def stoppedNote (walk : Walk) (offset : Nat) (error : String) : String :=
  if walk.nodes.isEmpty && offset == 0 then "not OpenPGP data"
  else s!"stopped at offset {offset}: {error}"

end Walk

def truncatedNote (offset : Nat) : String := s!"the input ends inside the packet at offset {offset}"

section

variable {κ : Type} (reader : FramingReader κ)

mutual

def walkLoop (data : Bytes) (depth offset : Nat) (walk : Walk) : Walk :=
  if offset < data.length then
    match readFraming reader (data.drop offset) with
    | .error error => { walk with note := some (walk.stoppedNote offset error) }
    | .ok framing =>
      let advance := framing.headerLength + framing.bodyLength
      let wire := (data.drop offset).take advance
      let node := attachRaw (describeFraming framing offset) wire walk.budget
      let inner := walkContainer framing depth (walk.budget.afterRaw wire)
      if framing.truncated ∨ advance = 0 then
        { walk.push node inner with note := some (truncatedNote offset) }
      else walkLoop data depth (offset + advance) (walk.push node inner)
  else walk
termination_by (maxDepth - depth, 2, data.length - offset)

/-- Only a compressed packet holds others. -/
def walkContainer (framing : Framing) (depth : Nat) (budget : Budget) : Walk :=
  if framing.header.tag = compressedTag then
    match reader.compressedData framing.header framing.body with
    | .error error => .failed budget error
    | .ok compressed => walkCompressed compressed depth budget
  else .start budget
termination_by (maxDepth - depth, 1, 0)

def walkCompressed (compressed : κ) (depth : Nat) (budget : Budget) : Walk :=
  if maxDepth ≤ depth + 1 then
    .failed budget s!"nesting deeper than {maxDepth} levels, not expanded"
  else
    match reader.decompress compressed with
    | .error error => .failed budget error
    | .ok inflated =>
      let limit := budget.decompressed
      match inflated.readUpTo (limit + 1) with
      | .error error => .failed budget error
      | .ok bytes =>
        let inner := bytes.take limit
        let walk := walkPackets inner (depth + 1)
          { budget with decompressed := limit - inner.length }
        { walk with
          note :=
            if limit < bytes.length then
              some s!"decompressed payload exceeds the {maxBlockSize} byte budget, truncated"
            else walk.note
          payloads := inner :: walk.payloads }
termination_by (maxDepth - depth, 0, 0)

def walkPackets (data : Bytes) (depth : Nat) (budget : Budget) : Walk :=
  walkLoop data depth 0 (.start budget)
termination_by (maxDepth - depth, 3, 0)

end

end

/-! ## What a walk says -/

def PacketNode.wireLength (node : PacketNode) : Nat := node.headerLength + node.bodyLength

/-- How far nodes go that lie one after the other. -/
def covered (nodes : List PacketNode) : Nat := (nodes.map PacketNode.wireLength).sum

/-- The nodes lie one after the other, the first at the offset. -/
def Tiled : Nat → List PacketNode → Prop
  | _, [] => True
  | offset, node :: nodes => node.offset = offset ∧ Tiled (offset + node.wireLength) nodes

/-- The nodes and those inside them, with how deep each is. -/
def nestedIn (depth : Nat) : List PacketNode → List (Nat × PacketNode)
  | [] => []
  | node :: nodes => (depth, node) :: (nestedIn (depth + 1) node.children ++ nestedIn depth nodes)
termination_by nodes => sizeOf nodes
decreasing_by
  · cases node
    simp only [List.cons.sizeOf_spec, PacketNode.mk.sizeOf_spec]
    omega
  · simp only [List.cons.sizeOf_spec]
    omega

/-- The hexadecimal digits of all nodes, two for each octet. -/
def rawDigits (nodes : List (Nat × PacketNode)) : Nat :=
  (nodes.map fun entry => entry.2.raw.length).sum

theorem nestedIn_append (depth : Nat) (nodes nodes' : List PacketNode) :
    nestedIn depth (nodes ++ nodes') = nestedIn depth nodes ++ nestedIn depth nodes' := by
  induction nodes with
  | nil => rw [List.nil_append, nestedIn, List.nil_append]
  | cons node nodes ih =>
    rw [List.cons_append, nestedIn, ih, nestedIn, List.cons_append, List.append_assoc]

theorem nestedIn_push (depth : Nat) (walk inner : Walk) (node : PacketNode) :
    nestedIn depth (walk.push node inner).nodes = nestedIn depth walk.nodes ++
      (depth, node.holding inner.nodes inner.note) :: nestedIn (depth + 1) inner.nodes := by
  rw [Walk.push, nestedIn_append, nestedIn, nestedIn, List.append_nil]
  rfl

theorem rawDigits_cons (entry : Nat × PacketNode) (nodes : List (Nat × PacketNode)) :
    rawDigits (entry :: nodes) = entry.2.raw.length + rawDigits nodes := by
  rw [rawDigits, List.map_cons, List.sum_cons]
  rfl

theorem rawDigits_append (nodes nodes' : List (Nat × PacketNode)) :
    rawDigits (nodes ++ nodes') = rawDigits nodes + rawDigits nodes' := by
  rw [rawDigits, List.map_append, List.sum_append]
  rfl

theorem covered_concat (nodes : List PacketNode) (node : PacketNode) :
    covered (nodes ++ [node]) = covered nodes + node.wireLength := by
  rw [covered, List.map_append, List.sum_append]
  simp [covered]

theorem Tiled.concat {offset : Nat} {nodes : List PacketNode} {node : PacketNode}
    (h : Tiled offset nodes) (hnode : node.offset = offset + covered nodes) :
    Tiled offset (nodes ++ [node]) := by
  induction nodes generalizing offset with
  | nil => exact ⟨hnode, trivial⟩
  | cons first nodes ih =>
    refine ⟨h.1, ih h.2 ?_⟩
    rw [hnode, covered, List.map_cons, List.sum_cons]
    exact (Nat.add_assoc _ _ _).symm

/-! ## The framing stays in the input -/

section

variable {κ : Type} {reader : FramingReader κ}

theorem bodyLoop_consumed (cursor : Bytes) (length : PacketLength) (body : Bytes) (consumed : Nat) :
    (bodyLoop reader cursor length body consumed).consumed ≤ consumed + cursor.length := by
  fun_induction bodyLoop reader cursor length body consumed with
  | case1 cursor body consumed n available => show consumed + available ≤ _; omega
  | case2 => exact Nat.le_refl _
  | case3 cursor body consumed n available body' hless =>
    show consumed + available ≤ _
    omega
  | case4 cursor body consumed n available body' rest hfull next cursor' hnext ih =>
    have hshort := reader.length_shortens hnext
    have hrest : rest.length = cursor.length - available := List.length_drop
    omega
  | case5 cursor body consumed n available body' rest hfull error hnext =>
    show consumed + available ≤ _
    omega

theorem readFraming_length {data : Bytes} {framing : Framing}
    (h : readFraming reader data = .ok framing) :
    0 < framing.headerLength ∧ framing.headerLength + framing.bodyLength ≤ data.length := by
  rw [readFraming] at h
  split at h
  · cases h
  · next header cursor hheader =>
    obtain rfl := Except.ok.inj h
    have hshort := reader.header_shortens hheader
    have hbody : (bodyLoop reader cursor header.packetLength [] 0).consumed ≤ 0 + cursor.length :=
      bodyLoop_consumed cursor header.packetLength [] 0
    show 0 < data.length - cursor.length ∧ data.length - cursor.length +
      (bodyLoop reader cursor header.packetLength [] 0).consumed ≤ data.length
    omega

end

/-! ## What a walk takes from the budget -/

theorem toHex_length (bytes : Bytes) : (toHex bytes).length = 2 * bytes.length := by
  induction bytes with
  | nil => rfl
  | cons b bytes ih =>
    rw [toHex, List.flatMap_cons, List.length_append, List.length_cons]
    show 2 + (toHex bytes).length = 2 * (bytes.length + 1)
    omega

/-- What a walk took from the budget is what its nodes and its streams hold. -/
structure Spent (depth : Nat) (budget : Budget) (walk : Walk) : Prop where
  decompressed : (walk.payloads.map List.length).sum + walk.budget.decompressed =
    budget.decompressed
  raw : rawDigits (nestedIn depth walk.nodes) + 2 * walk.budget.raw = 2 * budget.raw
  nested : ∀ entry ∈ nestedIn depth walk.nodes,
    entry.1 < maxDepth ∧ entry.2.raw.length ≤ 2 * maxRawBytes

theorem Spent.nodeless {depth : Nat} {budget : Budget} {walk : Walk} (hnodes : walk.nodes = [])
    (hpayloads : walk.payloads = []) (hbudget : walk.budget = budget) :
    Spent depth budget walk := by
  refine ⟨?_, ?_, ?_⟩
  · rw [hpayloads, hbudget, List.map_nil, List.sum_nil, Nat.zero_add]
  · rw [hnodes, hbudget, nestedIn, rawDigits, List.map_nil, List.sum_nil, Nat.zero_add]
  · rw [hnodes, nestedIn]
    exact fun entry hentry => by cases hentry

theorem attachRaw_raw_length (node : PacketNode) (wire : Bytes) (budget : Budget) :
    (attachRaw node wire budget).raw.length = 2 * shownOf wire budget := by
  have hshown : shownOf wire budget ≤ wire.length :=
    Nat.le_trans (Nat.min_le_left _ _) (Nat.min_le_left _ _)
  rw [attachRaw, String.length_ofList, toHex_length, List.length_take, Nat.min_eq_left hshown]

/-- A packet and what is inside it join a walk at its own depth. -/
theorem Spent.push {depth : Nat} {budget : Budget} {walk inner : Walk} (node : PacketNode)
    (wire : Bytes) (h : Spent depth budget walk) (hdepth : depth < maxDepth)
    (hinner : Spent (depth + 1) (walk.budget.afterRaw wire) inner) :
    Spent depth budget (walk.push (attachRaw node wire walk.budget) inner) := by
  have hraw := attachRaw_raw_length node wire walk.budget
  have hcap : shownOf wire walk.budget ≤ maxRawBytes :=
    Nat.le_trans (Nat.min_le_left _ _) (Nat.min_le_right _ _)
  have hleft : shownOf wire walk.budget ≤ walk.budget.raw := Nat.min_le_right _ _
  refine ⟨?_, ?_, ?_⟩
  · have hbefore := h.decompressed
    have hafter := hinner.decompressed
    rw [Walk.push, List.map_append, List.sum_append]
    show _ + inner.budget.decompressed = _
    change _ = walk.budget.decompressed at hafter
    omega
  · have hbefore := h.raw
    have hafter := hinner.raw
    change _ = 2 * (walk.budget.raw - shownOf wire walk.budget) at hafter
    rw [nestedIn_push, rawDigits_append, rawDigits_cons]
    show rawDigits (nestedIn depth walk.nodes) + ((attachRaw node wire walk.budget).raw.length +
      rawDigits (nestedIn (depth + 1) inner.nodes)) + 2 * inner.budget.raw = _
    omega
  · intro entry hentry
    rw [nestedIn_push, List.mem_append, List.mem_cons] at hentry
    obtain hentry | rfl | hentry := hentry
    · exact h.nested entry hentry
    · refine ⟨hdepth, ?_⟩
      show (attachRaw node wire walk.budget).raw.length ≤ _
      omega
    · exact hinner.nested entry hentry

/-! ## The walk over one stream -/

section

variable {κ : Type} {reader : FramingReader κ} {data : Bytes} {depth offset : Nat} {budget : Budget}
  {walk : Walk}

/-- How far the loop has come: its nodes lie one after the other up to the offset. -/
structure LoopInv (data : Bytes) (depth : Nat) (budget : Budget) (offset : Nat) (walk : Walk) :
    Prop where
  tiled : Tiled 0 walk.nodes
  covered_eq : covered walk.nodes = offset
  inside : offset ≤ data.length
  sized : ∀ node ∈ walk.nodes,
    0 < node.headerLength ∧ node.offset + node.wireLength ≤ data.length
  unnoted : walk.note = none
  spent : Spent depth budget walk

theorem LoopInv.start (data : Bytes) (depth : Nat) (budget : Budget) :
    LoopInv data depth budget 0 (.start budget) where
  tiled := trivial
  covered_eq := rfl
  inside := Nat.zero_le _
  sized := fun node hnode => by cases hnode
  unnoted := rfl
  spent := .nodeless rfl rfl rfl

/-- The part of the input that a packet takes. -/
def wireOf (data : Bytes) (offset : Nat) (framing : Framing) : Bytes :=
  (data.drop offset).take (framing.headerLength + framing.bodyLength)

theorem LoopInv.push {framing : Framing} {inner : Walk} (h : LoopInv data depth budget offset walk)
    (hdepth : depth < maxDepth)
    (hframing : readFraming reader (data.drop offset) = .ok framing)
    (hinner : Spent (depth + 1) (walk.budget.afterRaw (wireOf data offset framing)) inner) :
    LoopInv data depth budget (offset + (framing.headerLength + framing.bodyLength))
      (walk.push (attachRaw (describeFraming framing offset) (wireOf data offset framing)
        walk.budget) inner) := by
  obtain ⟨hheader, hlength⟩ := readFraming_length hframing
  have hinside := h.inside
  rw [List.length_drop] at hlength
  refine ⟨h.tiled.concat ?_, ?_, by omega, ?_, h.unnoted, h.spent.push _ _ hdepth hinner⟩
  · rw [Nat.zero_add]
    exact h.covered_eq.symm
  · rw [Walk.push, covered_concat, h.covered_eq]
    rfl
  · intro node hnode
    obtain hnode | hnode := List.mem_append.mp hnode
    · exact h.sized node hnode
    · obtain rfl := List.mem_singleton.mp hnode
      refine ⟨hheader, ?_⟩
      show offset + (framing.headerLength + framing.bodyLength) ≤ data.length
      omega

/-- What a walk says of its stream: all of it without a note, else how far it came and why. -/
structure Describes (data : Bytes) (depth : Nat) (budget : Budget) (walk : Walk) : Prop where
  tiled : Tiled 0 walk.nodes
  sized : ∀ node ∈ walk.nodes,
    0 < node.headerLength ∧ node.offset + node.wireLength ≤ data.length
  complete : walk.note = none → covered walk.nodes = data.length
  noted : ∀ note, walk.note = some note →
    (covered walk.nodes < data.length ∧
      ∃ error, note = walk.stoppedNote (covered walk.nodes) error) ∨
    ∃ front last, walk.nodes = front ++ [last] ∧ last.error = some truncatedBody ∧
      note = truncatedNote last.offset
  spent : Spent depth budget walk

theorem LoopInv.describes (h : LoopInv data depth budget offset walk)
    (hend : ¬offset < data.length) : Describes data depth budget walk where
  tiled := h.tiled
  sized := h.sized
  complete _ := by
    have hinside := h.inside
    have hcovered := h.covered_eq
    omega
  noted note hnote := by
    rw [h.unnoted] at hnote
    cases hnote
  spent := h.spent

theorem walkLoop_spec (hdepth : depth < maxDepth)
    (hcontainer : ∀ framing budget,
      Spent (depth + 1) budget (walkContainer reader framing depth budget))
    (h : LoopInv data depth budget offset walk) :
    Describes data depth budget (walkLoop reader data depth offset walk) := by
  induction hleft : data.length - offset using Nat.strong_induction_on
    generalizing offset walk with
  | _ left ih =>
    rw [walkLoop]
    split
    · next hoffset =>
      split
      · next error _ =>
        refine ⟨h.tiled, h.sized, nofun, fun note hnote => .inl ?_,
          ⟨h.spent.decompressed, h.spent.raw, h.spent.nested⟩⟩
        show covered walk.nodes < data.length ∧ ∃ error, note = walk.stoppedNote _ error
        rw [h.covered_eq]
        exact ⟨hoffset, error, (Option.some.inj hnote).symm⟩
      · next framing hframing =>
        obtain ⟨hheader, hlength⟩ := readFraming_length hframing
        have hnext := h.push hdepth hframing (hcontainer framing _)
        dsimp only
        split
        · next hstop =>
          -- a packet takes its header at least, so only a truncated one ends the walk
          have htruncated : framing.truncated = true := hstop.resolve_right (by omega)
          refine ⟨hnext.tiled, hnext.sized, nofun, fun note hnote => .inr ?_,
            ⟨hnext.spent.decompressed, hnext.spent.raw, hnext.spent.nested⟩⟩
          refine ⟨walk.nodes, _, rfl, ?_, (Option.some.inj hnote).symm⟩
          show (if framing.truncated then some truncatedBody else none : Option String).or _ = _
          rw [if_pos htruncated]
          rfl
        · exact ih _ (by omega) hnext rfl
    · next hend => exact h.describes hend

end

/-! ## Streams inside streams -/

section

variable {κ : Type} {reader : FramingReader κ}

theorem walkPackets_describes {depth : Nat} (hdepth : depth < maxDepth) (data : Bytes)
    (budget : Budget)
    (hcontainer : ∀ framing budget,
      Spent (depth + 1) budget (walkContainer reader framing depth budget)) :
    Describes data depth budget (walkPackets reader data depth budget) := by
  rw [walkPackets]
  exact walkLoop_spec hdepth hcontainer (.start data depth budget)

/-- A container takes from the budget what it holds, where the streams below do. -/
theorem walkCompressed_spent {depth : Nat}
    (hpackets : depth + 1 < maxDepth → ∀ data budget,
      Spent (depth + 1) budget (walkPackets reader data (depth + 1) budget))
    (compressed : κ) (budget : Budget) :
    Spent (depth + 1) budget (walkCompressed reader compressed depth budget) := by
  rw [walkCompressed]
  split
  · exact .nodeless rfl rfl rfl
  · next hdepth =>
    split
    · exact .nodeless rfl rfl rfl
    · next inflated _ =>
      dsimp only
      split
      · exact .nodeless rfl rfl rfl
      · next bytes _ =>
        have hkept : (bytes.take budget.decompressed).length ≤ budget.decompressed :=
          List.length_take_le _ _
        have hinner := hpackets (by omega) (bytes.take budget.decompressed) { budget with
          decompressed := budget.decompressed - (bytes.take budget.decompressed).length }
        refine ⟨?_, hinner.raw, hinner.nested⟩
        have hspent := hinner.decompressed
        rw [List.map_cons, List.sum_cons]
        dsimp only at hspent ⊢
        omega

theorem walkContainer_spent {depth : Nat}
    (hpackets : depth + 1 < maxDepth → ∀ data budget,
      Spent (depth + 1) budget (walkPackets reader data (depth + 1) budget))
    (framing : Framing) (budget : Budget) :
    Spent (depth + 1) budget (walkContainer reader framing depth budget) := by
  rw [walkContainer]
  split
  · split
    · exact .nodeless rfl rfl rfl
    · exact walkCompressed_spent hpackets _ budget
  · exact .nodeless rfl rfl rfl

/-- By induction on the levels that are left. -/
theorem walkPackets_spec {depth : Nat} (hdepth : depth < maxDepth) (data : Bytes)
    (budget : Budget) : Describes data depth budget (walkPackets reader data depth budget) := by
  induction hleft : maxDepth - depth generalizing depth data budget with
  | zero => omega
  | succ left ih =>
    refine walkPackets_describes hdepth data budget
      (walkContainer_spent fun hnext data' budget' => ?_)
    exact (ih hnext data' budget' (by omega)).spent

/-- A walk without a note covers its input. One with a note stopped before the end of it, or in a
packet that is marked truncated. -/
theorem walked_packets_tile_input (reader : FramingReader κ) {depth : Nat}
    (hdepth : depth < maxDepth) (data : Bytes) (budget : Budget) :
    let walk := walkPackets reader data depth budget
    Tiled 0 walk.nodes ∧
      (∀ node ∈ walk.nodes,
        0 < node.headerLength ∧ node.offset + node.wireLength ≤ data.length) ∧
      (walk.note = none → covered walk.nodes = data.length) ∧
      (∀ note, walk.note = some note →
        (covered walk.nodes < data.length ∧
          ∃ error, note = walk.stoppedNote (covered walk.nodes) error) ∨
        ∃ front last, walk.nodes = front ++ [last] ∧ last.error = some truncatedBody ∧
          note = truncatedNote last.offset) ∧
      (∀ entry ∈ nestedIn depth walk.nodes,
        entry.1 < maxDepth ∧ entry.2.raw.length ≤ 2 * maxRawBytes) ∧
      rawDigits (nestedIn depth walk.nodes) ≤ 2 * budget.raw ∧
      (walk.payloads.map List.length).sum ≤ budget.decompressed := by
  have h : Describes data depth budget (walkPackets reader data depth budget) :=
    walkPackets_spec hdepth data budget
  refine ⟨h.tiled, h.sized, h.complete, h.noted, h.spent.nested, ?_, ?_⟩
  · exact h.spent.raw ▸ Nat.le_add_right _ _
  · exact h.spent.decompressed ▸ Nat.le_add_right _ _

end

/-! ## A cut packet -/

/-- The budget `inspect` starts with. -/
def documentBudget : Budget := ⟨maxBlockSize, maxRawTotal, false⟩

/-- New headers with a length of one octet, and no compression. -/
def shortReader : FramingReader Empty where
  header data :=
    match data with
    | first :: length :: cursor => .ok (.new (first &&& 0x3f) (.fixed length.toNat), cursor)
    | _ => .error "no packet header"
  length data :=
    match data with
    | length :: cursor => .ok (.fixed length.toNat, cursor)
    | [] => .error "no packet length"
  compressedData _ _ := .error "not supported"
  decompress compressed := nomatch compressed
  header_shortens h := by
    split at h
    · obtain ⟨-, rfl⟩ := Prod.mk.inj (Except.ok.inj h)
      rw [List.length_cons, List.length_cons]
      omega
    · cases h
  length_shortens h := by
    split at h
    · obtain ⟨-, rfl⟩ := Prod.mk.inj (Except.ok.inj h)
      rw [List.length_cons]
      omega
    · cases h

/-- A literal packet that says it has five octets, cut after two. -/
def cutPacket : Bytes := [0xcb, 5, 1, 2]

theorem readFraming_cutPacket :
    readFraming shortReader cutPacket = .ok ⟨.new 11 (.fixed 5), 2, 2, [1, 2], true⟩ := by
  have hbody : bodyLoop shortReader [1, 2] (.fixed 5) [] 0 = ⟨2, [1, 2], true⟩ := by
    rw [bodyLoop]
    rfl
  have hheader : shortReader.header cutPacket = .ok (.new 11 (.fixed 5), [1, 2]) := rfl
  rw [readFraming, hheader]
  dsimp only [PacketHeader.packetLength]
  rw [hbody]
  rfl

/-- The nodes cover the whole input, and there is a note. -/
theorem cut_packet_covers_input :
    covered (walkPackets shortReader cutPacket 0 documentBudget).nodes = cutPacket.length ∧
      (walkPackets shortReader cutPacket 0 documentBudget).note =
        some "the input ends inside the packet at offset 0" := by
  rw [walkPackets, walkLoop, if_pos (by decide), List.drop_zero, readFraming_cutPacket]
  exact ⟨rfl, by decide⟩

theorem cut_packet_within_budget :
    Tiled 0 (walkPackets shortReader cutPacket 0 documentBudget).nodes ∧
      rawDigits (nestedIn 0 (walkPackets shortReader cutPacket 0 documentBudget).nodes) ≤
        2 * maxRawTotal := by
  have hdepth : 0 < maxDepth := by decide
  have h := walked_packets_tile_input shortReader hdepth cutPacket documentBudget
  exact ⟨h.1, h.2.2.2.2.2.1⟩

end GpgFrontend.Rpgp
