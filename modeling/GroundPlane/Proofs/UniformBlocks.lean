import Mathlib
import GroundPlane.Gpu.Block
import GroundPlane.Grid.Fragment
import GroundPlane.Lighting.Stage

/-!
# Uniform blocks carry the inputs of every stage

What a shader reads from a uniform block is what was put into it, bit for bit
(`uniform_blocks_faithful`). A shader sees the bytes of a block as a struct, and finds each member
at the next multiple of the member's alignment. The structs are written down here as readers, member
by member in the order in which the shaders declare them. They read words, so that a NaN keeps its
payload; the stages compute with the numbers that the words stand for.
-/

namespace GroundPlane

/-! ## Numbers and their bits -/

section LeftInverse

variable {α β : Type} {f : α → β} {g : β → α} (undo : Function.LeftInverse g f)

include undo

theorem Vec3.map_leftInverse : Function.LeftInverse (Vec3.map g) (Vec3.map f) := fun v => by
  simp only [Vec3.map, undo _]

theorem Vec4.map_leftInverse : Function.LeftInverse (Vec4.map g) (Vec4.map f) := fun v => by
  simp only [Vec4.map, undo _]

theorem Mat4.map_leftInverse : Function.LeftInverse (Mat4.map g) (Mat4.map f) := fun m => by
  simp only [Mat4.map, Vec4.map_leftInverse undo _]

theorem Projector.map_leftInverse :
    Function.LeftInverse (Projector.map g) (Projector.map f) := fun p => by
  simp only [Projector.map, Mat4.map_leftInverse undo _, undo _]

theorem Grid.Style.map_leftInverse :
    Function.LeftInverse (Grid.Style.map g) (Grid.Style.map f) := fun style => by
  simp only [Grid.Style.map, Vec3.map_leftInverse undo _, undo _]

theorem Lighting.Object.map_leftInverse :
    Function.LeftInverse (Lighting.Object.map g) (Lighting.Object.map f) := fun object => by
  simp only [Lighting.Object.map, Mat4.map_leftInverse undo _, Vec3.map_leftInverse undo _]

end LeftInverse

theorem Gpu.ofBits_leftInverse : Function.LeftInverse Float32.ofBits Float32.toBits :=
  Float32.ofBits_toBits

namespace Gpu

/-! ## Words and bytes -/

theorem or_mul_two_pow {a k : Nat} (short : a < 2 ^ k) (b : Nat) :
    a ||| b * 2 ^ k = a + b * 2 ^ k := by
  rw [Nat.or_comm, ← Nat.shiftLeft_eq, ← Nat.shiftLeft_add_eq_or_of_lt short, Nat.add_comm]

theorem joined_wordBytes (w : UInt32) :
    w.toUInt8.toUInt32 ||| (w >>> 8).toUInt8.toUInt32 <<< 8 |||
      (w >>> 16).toUInt8.toUInt32 <<< 16 ||| (w >>> 24).toUInt8.toUInt32 <<< 24 = w := by
  have bound := w.toNat_lt
  apply UInt32.toNat_inj.1
  change w.toNat % 2 ^ 8 ||| (w.toNat >>> 8 % 2 ^ 8) <<< 8 % 2 ^ 32 |||
    (w.toNat >>> 16 % 2 ^ 8) <<< 16 % 2 ^ 32 ||| (w.toNat >>> 24 % 2 ^ 8) <<< 24 % 2 ^ 32 = w.toNat
  simp only [Nat.shiftRight_eq_div_pow, Nat.shiftLeft_eq]
  rw [Nat.mod_eq_of_lt (a := _ * 2 ^ 8) (by omega), Nat.mod_eq_of_lt (a := _ * 2 ^ 16) (by omega),
    Nat.mod_eq_of_lt (a := _ * 2 ^ 24) (by omega), or_mul_two_pow (k := 8) (by omega),
    or_mul_two_pow (k := 16) (by omega), or_mul_two_pow (k := 24) (by omega)]
  omega

theorem Block.ofBytes_bytes (b : Block) : Block.ofBytes b.bytes = b := by
  induction b with
  | nil => rfl
  | cons w b ih =>
    change (w.toUInt8.toUInt32 ||| (w >>> 8).toUInt8.toUInt32 <<< 8 |||
      (w >>> 16).toUInt8.toUInt32 <<< 16 ||| (w >>> 24).toUInt8.toUInt32 <<< 24) ::
      Block.ofBytes (Block.bytes b) = _
    rw [joined_wordBytes, ih]

theorem Block.drop_bytes (b : Block) (k : Nat) : b.bytes.drop (4 * k) = Block.bytes (b.drop k) := by
  induction k generalizing b with
  | zero => rfl
  | succ k ih =>
    cases b with
    | nil => simp [Block.bytes]
    | cons w b => exact ih b

theorem Block.length_bytes (b : Block) : b.bytes.length = 4 * b.length := by
  induction b with
  | nil => rfl
  | cons w b ih =>
    change (Block.bytes b).length + 4 = _
    rw [ih, List.length_cons]
    omega

/-! ## Values in words -/

/-- The vector in two words. -/
def vec2Of (b : Block) : Vec2 UInt32 :=
  ⟨b.getD 0 0, b.getD 1 0⟩

/-- The vector in four words. -/
def vec4Of (b : Block) : Vec4 UInt32 :=
  ⟨b.getD 0 0, b.getD 1 0, b.getD 2 0, b.getD 3 0⟩

/-- The matrix in sixteen words, column by column. -/
def mat4Of (b : Block) : Mat4 UInt32 :=
  ⟨vec4Of b, vec4Of (b.drop 4), vec4Of (b.drop 8), vec4Of (b.drop 12)⟩

theorem vec2Of_append (v : Vec2 UInt32) (rest : Block) : vec2Of (v.toList ++ rest) = v :=
  rfl

theorem vec4Of_append (v : Vec4 UInt32) (rest : Block) : vec4Of (v.toList ++ rest) = v :=
  rfl

theorem mat4Of_append (m : Mat4 UInt32) (rest : Block) : mat4Of (m.toList ++ rest) = m :=
  rfl

theorem map_ofBits_inverseBits (m : Mat4 UInt32) :
    (inverseBits m).map Float32.ofBits = (m.map Float32.ofBits).inverse :=
  Mat4.map_leftInverse ofBits_leftInverse _

/-! ## Structs -/

/-- Reads a struct from bytes, with the offset behind the member that was read last. -/
abbrev Reading := ReaderT (List UInt8) (StateM Nat)

/-- The least multiple of an alignment that is not below an offset. -/
def roundUp (offset alignment : Nat) : Nat :=
  (offset + alignment - 1) / alignment * alignment

/-- Reads the next member, at a multiple of its alignment. -/
def member {β : Type} (alignment size : Nat) (value : Block → β) : Reading β := fun bytes offset =>
  let start := roundUp offset alignment
  (value (Block.ofBytes (bytes.drop start)), start + size)

namespace Reading

/-- A 32-bit word. -/
def word : Reading UInt32 :=
  member 4 4 fun b => b.getD 0 0

/-- A vector of two words. -/
def vec2 : Reading (Vec2 UInt32) :=
  member 8 8 vec2Of

/-- A vector of four words. -/
def vec4 : Reading (Vec4 UInt32) :=
  member 16 16 vec4Of

/-- A matrix of four columns. -/
def mat4 : Reading (Mat4 UInt32) :=
  member 16 64 mat4Of

end Reading

/-- Wherever the words `here` stand in a block, from word `start` up to word `stop`, the reading
takes them as `x` and ends behind them. -/
structure Finds {β : Type} (reading : Reading β) (start stop : Nat) (here : Block) (x : β) :
    Prop where
  length : start + here.length = stop
  run : ∀ before rest : Block, before.length = start →
    reading (Block.bytes (before ++ here ++ rest)) (4 * start) = (x, 4 * stop)

theorem roundUp_of_dvd {offset alignment : Nat} (positive : 0 < alignment)
    (aligned : alignment ∣ offset) : roundUp offset alignment = offset := by
  obtain ⟨k, rfl⟩ := aligned
  have quotient : (alignment * k + alignment - 1) / alignment = k := by
    rw [Nat.add_sub_assoc positive, Nat.mul_add_div positive, Nat.div_eq_of_lt (by omega),
      Nat.add_zero]
  rw [roundUp, quotient, Nat.mul_comm]

theorem member_finds {β : Type} {alignment : Nat} {value : Block → β} {start : Nat} {b : Block}
    {x : β} (positive : 0 < alignment) (aligned : alignment ∣ 4 * start)
    (found : ∀ rest, value (b ++ rest) = x) :
    Finds (member alignment (4 * b.length) value) start (start + b.length) b x := by
  refine ⟨rfl, fun before rest place => ?_⟩
  unfold member
  dsimp only
  rw [roundUp_of_dvd positive aligned, Block.drop_bytes, Block.ofBytes_bytes, List.append_assoc,
    List.drop_left' place, found, Nat.mul_add]

namespace Finds

variable {β γ : Type} {start middle stop : Nat} {here there : Block}

theorem pure (x : β) (n : Nat) : Finds (Pure.pure x) n n [] x :=
  ⟨rfl, fun _ _ _ => rfl⟩

theorem bind {reading : Reading β} {next : β → Reading γ} {x : β} {y : γ}
    (first : Finds reading start middle here x) (second : Finds (next x) middle stop there y) :
    Finds (reading >>= next) start stop (here ++ there) y := by
  constructor
  · rw [List.length_append, ← Nat.add_assoc, first.length, second.length]
  · intro before rest place
    have run := first.run before (there ++ rest) place
    have run' := second.run (before ++ here) rest (by rw [List.length_append, place, first.length])
    change (next (reading _ _).1) _ (reading _ _).2 = _
    rw [← List.append_assoc before here there, List.append_assoc (before ++ here), run]
    rw [List.append_assoc] at run'
    exact run'

theorem run_zero {reading : Reading β} {x : β} (finds : Finds reading 0 stop here x) :
    reading (Block.bytes here) 0 = (x, 4 * stop) := by
  have run := finds.run [] [] rfl
  rwa [List.append_nil] at run

theorem mat4 (m : Mat4 UInt32) (k : Nat) : Finds .mat4 (4 * k) (4 * k + 16) m.toList m :=
  member_finds (by decide) ⟨k, by omega⟩ (mat4Of_append m)

theorem vec4 (v : Vec4 UInt32) (k : Nat) : Finds .vec4 (4 * k) (4 * k + 4) v.toList v :=
  member_finds (by decide) ⟨k, by omega⟩ (vec4Of_append v)

theorem vec2 (v : Vec2 UInt32) (k : Nat) : Finds .vec2 (2 * k) (2 * k + 2) v.toList v :=
  member_finds (by decide) ⟨k, by omega⟩ (vec2Of_append v)

theorem word (w : UInt32) (k : Nat) : Finds .word k (k + 1) [w] w :=
  member_finds (b := [w]) (by decide) ⟨k, rfl⟩ fun _ => rfl

end Finds

/-! ## The grid -/

/-- What the grid's shaders see of their block, as words or as the numbers that they stand for. -/
structure GridUniform (α : Type) where
  view : Mat4 α
  projection : Mat4 α
  invView : Mat4 α
  invProjection : Mat4 α
  lineColor : Vec4 α
  scales : Vec2 α
  near : α
  far : α
  axisBand : α
  fadeOffset : α

namespace GridUniform

/-- The grid's struct, in the order of its members. Two words of padding are read and dropped. -/
def reading : Reading (GridUniform UInt32) := do
  let view ← .mat4
  let projection ← .mat4
  let invView ← .mat4
  let invProjection ← .mat4
  let lineColor ← .vec4
  let scales ← .vec2
  let near ← .word
  let far ← .word
  let axisBand ← .word
  let fadeOffset ← .word
  let _ ← .vec2
  return { view, projection, invView, invProjection, lineColor, scales, near, far,
           axisBand, fadeOffset }

/-- The size of the struct: its end, rounded up to the largest alignment. -/
def size : Nat :=
  roundUp (reading [] 0).2 16

/-- The words of the struct at the start of some bytes. -/
def wordsOf (bytes : List UInt8) : GridUniform UInt32 :=
  (reading bytes 0).1

variable {α β : Type}

/-- Applies a function to each member. -/
def map (f : α → β) (u : GridUniform α) : GridUniform β where
  view := u.view.map f
  projection := u.projection.map f
  invView := u.invView.map f
  invProjection := u.invProjection.map f
  lineColor := u.lineColor.map f
  scales := u.scales.map f
  near := f u.near
  far := f u.far
  axisBand := f u.axisBand
  fadeOffset := f u.fadeOffset

/-- The struct at the start of some bytes. -/
def ofBytes (bytes : List UInt8) : GridUniform Float32 :=
  (wordsOf bytes).map Float32.ofBits

/-- View, projection and clip distances. -/
def projector (u : GridUniform α) : Projector α :=
  { view := u.view, projection := u.projection, near := u.near, far := u.far }

/-- The look of the grid. The alpha of the line color is not used. -/
def style (u : GridUniform α) : Grid.Style α where
  fine := u.scales.x
  coarse := u.scales.y
  lineColor := u.lineColor.xyz
  axisBand := u.axisBand
  fadeOffset := u.fadeOffset

/-- The point at given device coordinates. -/
def unproject (u : GridUniform Float32) (ndc : Vec3 Float32) : Vec3 Float32 :=
  ((u.invView * u.invProjection).mulVec (ndc.extend 1)).dehomogenize

/-- The vertex stage. -/
def corner (u : GridUniform Float32) (ndc : Vec2 Float32) : Grid.Corner Float32 where
  clip := ⟨ndc.x, ndc.y, 0, 1⟩
  ray := { near := u.unproject (ndc.extend 0), far := u.unproject (ndc.extend 1) }

/-- The fragment stage. -/
def fragment (u : GridUniform Float32) (rays : Patch (Grid.Ray Float32)) :
    Grid.Fragment Float32 :=
  Grid.fragment rays u.projector u.style

/-- Every member that is not computed is what was put in. -/
structure Holds (u : GridUniform α) (p : Projector α) (style : Grid.Style α) : Prop where
  view : u.view = p.view
  projection : u.projection = p.projection
  lineColor : u.lineColor.xyz = style.lineColor
  scales : u.scales = ⟨style.fine, style.coarse⟩
  near : u.near = p.near
  far : u.far = p.far
  axisBand : u.axisBand = style.axisBand
  fadeOffset : u.fadeOffset = style.fadeOffset

/-- Points are unprojected as by the projector, and both stages give what they give for the
projector and the style. -/
structure Serves (u : GridUniform Float32) (p : Projector Float32) (style : Grid.Style Float32) :
    Prop where
  unproject : ∀ ndc, u.unproject ndc = p.unproject ndc
  corner : ∀ ndc, u.corner ndc = Grid.Corner.ofNdc p ndc
  fragment : ∀ rays, u.fragment rays = Grid.fragment rays p style

namespace Holds

variable {u : GridUniform α} {p p' : Projector α} {style style' : Grid.Style α}

theorem projector_eq (holds : u.Holds p style) : u.projector = p := by
  rw [projector, holds.view, holds.projection, holds.near, holds.far]

theorem style_eq (holds : u.Holds p style) : u.style = style := by
  rw [GridUniform.style, holds.lineColor, holds.scales, holds.axisBand, holds.fadeOffset]

theorem unique (holds : u.Holds p style) (holds' : u.Holds p' style') :
    p = p' ∧ style = style' :=
  ⟨holds.projector_eq.symm.trans holds'.projector_eq, holds.style_eq.symm.trans holds'.style_eq⟩

theorem map (holds : u.Holds p style) (f : α → β) : (u.map f).Holds (p.map f) (style.map f) where
  view := congrArg (Mat4.map f) holds.view
  projection := congrArg (Mat4.map f) holds.projection
  lineColor := congrArg (Vec3.map f) holds.lineColor
  scales := congrArg (Vec2.map f) holds.scales
  near := congrArg f holds.near
  far := congrArg f holds.far
  axisBand := congrArg f holds.axisBand
  fadeOffset := congrArg f holds.fadeOffset

end Holds

theorem Holds.serves {u : GridUniform Float32} {p : Projector Float32}
    {style : Grid.Style Float32} (holds : u.Holds p style) (view : u.invView = p.view.inverse)
    (projection : u.invProjection = p.projection.inverse) : u.Serves p style := by
  have unproject ndc : u.unproject ndc = p.unproject ndc := by
    rw [GridUniform.unproject, view, projection]
    rfl
  refine ⟨unproject, fun ndc => ?_, fun rays => ?_⟩
  · rw [GridUniform.corner, unproject, unproject]
    rfl
  · rw [GridUniform.fragment, holds.projector_eq, holds.style_eq]

/-- What is put into the grid's block. -/
def ofInputs (p : Projector UInt32) (style : Grid.Style UInt32) : GridUniform UInt32 where
  view := p.view
  projection := p.projection
  invView := inverseBits p.view
  invProjection := inverseBits p.projection
  lineColor := style.lineColor.extend (1 : Float32).toBits
  scales := ⟨style.fine, style.coarse⟩
  near := p.near
  far := p.far
  axisBand := style.axisBand
  fadeOffset := style.fadeOffset

section

variable (p : Projector UInt32) (style : Grid.Style UInt32)

theorem reading_finds : Finds reading 0 76 (gridWords p style) (ofInputs p style) := by
  have members : gridWords p style =
      p.view.toList ++ (p.projection.toList ++ ((inverseBits p.view).toList ++
      ((inverseBits p.projection).toList ++ ((style.lineColor.extend (1 : Float32).toBits).toList ++
      ((Vec2.mk style.fine style.coarse).toList ++ ([p.near] ++ ([p.far] ++ ([style.axisBand] ++
      ([style.fadeOffset] ++ ((Vec2.mk 0 0).toList ++ [])))))))))) := by
    simp only [gridWords, List.append_assoc]
    rfl
  rw [members]
  refine (Finds.mat4 _ 0).bind <| (Finds.mat4 _ 4).bind <| (Finds.mat4 _ 8).bind <| ?_
  refine (Finds.mat4 _ 12).bind <| (Finds.vec4 _ 16).bind <| (Finds.vec2 _ 34).bind <| ?_
  refine (Finds.word _ 70).bind <| (Finds.word _ 71).bind <| (Finds.word _ 72).bind <| ?_
  refine (Finds.word _ 73).bind <| (Finds.vec2 _ 37).bind ?_
  exact Finds.pure _ 76

theorem gridWords_length : (gridWords p style).bytes.length = gridBlockSize := by
  have words := (reading_finds p style).length
  rw [Block.length_bytes]
  change _ = 304
  omega

theorem wordsOf_gridWords : wordsOf (gridWords p style).bytes = ofInputs p style :=
  congrArg Prod.fst (reading_finds p style).run_zero

theorem gridWords_holds : (wordsOf (gridWords p style).bytes).Holds p style := by
  rw [wordsOf_gridWords]
  exact ⟨rfl, rfl, rfl, rfl, rfl, rfl, rfl, rfl⟩

theorem gridWords_serves :
    (ofBytes (gridWords p style).bytes).Serves (p.map .ofBits) (style.map .ofBits) := by
  refine ((gridWords_holds p style).map Float32.ofBits).serves ?_ ?_ <;>
    rw [wordsOf_gridWords]
  · exact map_ofBits_inverseBits p.view
  · exact map_ofBits_inverseBits p.projection

end

theorem gridBlock_holds (p : Projector Float32) (style : Grid.Style Float32) :
    (ofBytes (gridBlock p style).bytes).Holds p style := by
  have holds :=
    (gridWords_holds (p.map Float32.toBits) (style.map Float32.toBits)).map Float32.ofBits
  rwa [Projector.map_leftInverse ofBits_leftInverse,
    Grid.Style.map_leftInverse ofBits_leftInverse] at holds

theorem gridBlock_serves (p : Projector Float32) (style : Grid.Style Float32) :
    (ofBytes (gridBlock p style).bytes).Serves p style := by
  have serves := gridWords_serves (p.map Float32.toBits) (style.map Float32.toBits)
  rwa [Projector.map_leftInverse ofBits_leftInverse,
    Grid.Style.map_leftInverse ofBits_leftInverse] at serves

end GridUniform

/-! ## Lit objects -/

/-- What the shaders of lit objects see of their block, as words or as the numbers that they stand
for. -/
structure LitUniform (α : Type) where
  model : Mat4 α
  view : Mat4 α
  projection : Mat4 α
  light : Vec4 α
  normalMode : UInt32

namespace LitUniform

/-- The struct of a lit object, in the order of its members. Three words of padding are read and
dropped. -/
def reading : Reading (LitUniform UInt32) := do
  let model ← .mat4
  let view ← .mat4
  let projection ← .mat4
  let light ← .vec4
  let normalMode ← .word
  let _ ← .word
  let _ ← .word
  let _ ← .word
  return { model, view, projection, light, normalMode }

/-- The size of the struct: its end, rounded up to the largest alignment. -/
def size : Nat :=
  roundUp (reading [] 0).2 16

/-- The words of the struct at the start of some bytes. -/
def wordsOf (bytes : List UInt8) : LitUniform UInt32 :=
  (reading bytes 0).1

variable {α β : Type}

/-- Applies a function to each member that is a number. -/
def map (f : α → β) (u : LitUniform α) : LitUniform β where
  model := u.model.map f
  view := u.view.map f
  projection := u.projection.map f
  light := u.light.map f
  normalMode := u.normalMode

/-- The struct at the start of some bytes. -/
def ofBytes (bytes : List UInt8) : LitUniform Float32 :=
  (wordsOf bytes).map Float32.ofBits

/-- The vertex stage. -/
def vertex (u : LitUniform Float32) (v : Vertex Float32) : Lighting.Varying Float32 :=
  let world := u.model.mulVec (v.position.extend 1)
  { clip := (u.projection * u.view).mulVec world
    position := world.xyz
    color := v.color
    uv := v.uv
    normal := u.model.linear.mulVec v.normal }

/-- The object that is drawn. The last component of the light is not used. -/
def object (u : LitUniform α) : Lighting.Object α where
  model := u.model
  light := u.light.xyz
  normals := if u.normalMode = 1 then .vertex else .derivative

/-- The fragment stage, given the texture's color at the fragment. -/
def fragment (u : LitUniform Float32) (patch : Patch (Lighting.Varying Float32))
    (texel : Vec4 Float32) : Vec4 Float32 :=
  Lighting.fragment patch texel u.object

/-- Every member is what was put in. -/
structure Holds (u : LitUniform α) (p : Projector α) (object : Lighting.Object α) : Prop where
  model : u.model = object.model
  view : u.view = p.view
  projection : u.projection = p.projection
  light : u.light.xyz = object.light
  normalMode : u.normalMode = 1 ↔ object.normals = .vertex

/-- Both stages give what they give for the projector and the object. -/
structure Serves (u : LitUniform Float32) (p : Projector Float32)
    (object : Lighting.Object Float32) : Prop where
  vertex : ∀ v, u.vertex v = Lighting.vertex v p object
  fragment : ∀ patch texel, u.fragment patch texel = Lighting.fragment patch texel object

namespace Holds

variable {u : LitUniform α} {p p' : Projector α} {object object' : Lighting.Object α}

theorem object_eq (holds : u.Holds p object) : u.object = object := by
  obtain ⟨model, light, normals⟩ := object
  have mode := holds.normalMode
  rw [LitUniform.object, holds.model, holds.light]
  cases normals <;> simp [mode]

theorem unique (holds : u.Holds p object) (holds' : u.Holds p' object') :
    p.view = p'.view ∧ p.projection = p'.projection ∧ object = object' :=
  ⟨holds.view.symm.trans holds'.view, holds.projection.symm.trans holds'.projection,
    holds.object_eq.symm.trans holds'.object_eq⟩

theorem map (holds : u.Holds p object) (f : α → β) : (u.map f).Holds (p.map f) (object.map f) where
  model := congrArg (Mat4.map f) holds.model
  view := congrArg (Mat4.map f) holds.view
  projection := congrArg (Mat4.map f) holds.projection
  light := congrArg (Vec3.map f) holds.light
  normalMode := holds.normalMode

end Holds

theorem Holds.serves {u : LitUniform Float32} {p : Projector Float32}
    {object : Lighting.Object Float32} (holds : u.Holds p object) : u.Serves p object := by
  refine ⟨fun v => ?_, fun patch texel => ?_⟩
  · rw [LitUniform.vertex, holds.model, holds.view, holds.projection]
    rfl
  · rw [LitUniform.fragment, holds.object_eq]

/-- What is put into the block of a lit object. -/
def ofInputs (p : Projector UInt32) (object : Lighting.Object UInt32) : LitUniform UInt32 where
  model := object.model
  view := p.view
  projection := p.projection
  light := object.light.extend (1 : Float32).toBits
  normalMode := object.normals.code

theorem code_eq_one_iff (normals : NormalSource) : normals.code = 1 ↔ normals = .vertex := by
  cases normals <;> decide

section

variable (p : Projector UInt32) (object : Lighting.Object UInt32)

theorem reading_finds : Finds reading 0 56 (litWords p object) (ofInputs p object) := by
  have members : litWords p object =
      object.model.toList ++ (p.view.toList ++ (p.projection.toList ++
      ((object.light.extend (1 : Float32).toBits).toList ++
      ([object.normals.code] ++ ([0] ++ ([0] ++ ([0] ++ []))))))) := by
    simp only [litWords, List.append_assoc]
    rfl
  rw [members]
  refine (Finds.mat4 _ 0).bind <| (Finds.mat4 _ 4).bind <| (Finds.mat4 _ 8).bind <| ?_
  refine (Finds.vec4 _ 12).bind <| (Finds.word _ 52).bind <| (Finds.word _ 53).bind <| ?_
  refine (Finds.word _ 54).bind <| (Finds.word _ 55).bind ?_
  exact Finds.pure _ 56

theorem litWords_length : (litWords p object).bytes.length = litBlockSize := by
  have words := (reading_finds p object).length
  rw [Block.length_bytes]
  change _ = 224
  omega

theorem wordsOf_litWords : wordsOf (litWords p object).bytes = ofInputs p object :=
  congrArg Prod.fst (reading_finds p object).run_zero

theorem litWords_holds : (wordsOf (litWords p object).bytes).Holds p object := by
  rw [wordsOf_litWords]
  exact ⟨rfl, rfl, rfl, rfl, code_eq_one_iff _⟩

end

theorem litBlock_length (p : Projector Float32) (object : Lighting.Object Float32) :
    (litBlock p object).bytes.length = litBlockSize :=
  litWords_length _ _

theorem litBlock_holds (p : Projector Float32) (object : Lighting.Object Float32) :
    (ofBytes (litBlock p object).bytes).Holds p object := by
  have holds :=
    (litWords_holds (p.map Float32.toBits) (object.map Float32.toBits)).map Float32.ofBits
  rwa [Projector.map_leftInverse ofBits_leftInverse,
    Lighting.Object.map_leftInverse ofBits_leftInverse] at holds

end LitUniform

/-! ## Faithfulness -/

/-- The block of the grid is as long as its struct, which reads back every member word for word,
NaNs included, and inverses that unproject as the projector does; so both stages compute from it
what they compute from the projector and the style. The same holds of lit objects, whose block
leaves out the clip distances. Blocks are equal only if everything in them is. -/
theorem uniform_blocks_faithful :
    (∀ (p : Projector UInt32) (style : Grid.Style UInt32),
      let bytes := (gridWords p style).bytes
      bytes.length = gridBlockSize ∧ GridUniform.size = gridBlockSize ∧
      (GridUniform.wordsOf bytes).Holds p style ∧
      (GridUniform.ofBytes bytes).Serves (p.map .ofBits) (style.map .ofBits)) ∧
    (∀ (p : Projector Float32) (style : Grid.Style Float32),
      let bytes := (gridBlock p style).bytes
      bytes.length = gridBlockSize ∧
      (GridUniform.ofBytes bytes).Holds p style ∧ (GridUniform.ofBytes bytes).Serves p style) ∧
    (∀ (p : Projector UInt32) (object : Lighting.Object UInt32),
      let bytes := (litWords p object).bytes
      bytes.length = litBlockSize ∧ LitUniform.size = litBlockSize ∧
      (LitUniform.wordsOf bytes).Holds p object ∧
      (LitUniform.ofBytes bytes).Serves (p.map .ofBits) (object.map .ofBits)) ∧
    (∀ (p : Projector Float32) (object : Lighting.Object Float32),
      let bytes := (litBlock p object).bytes
      bytes.length = litBlockSize ∧
      (LitUniform.ofBytes bytes).Holds p object ∧ (LitUniform.ofBytes bytes).Serves p object) ∧
    (∀ (p p' : Projector UInt32) (style style' : Grid.Style UInt32),
      (gridWords p style).bytes = (gridWords p' style').bytes ↔ p = p' ∧ style = style') ∧
    (∀ (p p' : Projector Float32) (style style' : Grid.Style Float32),
      (gridBlock p style).bytes = (gridBlock p' style').bytes ↔ p = p' ∧ style = style') ∧
    (∀ (p p' : Projector UInt32) (object object' : Lighting.Object UInt32),
      (litWords p object).bytes = (litWords p' object').bytes ↔
        p.view = p'.view ∧ p.projection = p'.projection ∧ object = object') ∧
    ∀ (p p' : Projector Float32) (object object' : Lighting.Object Float32),
      (litBlock p object).bytes = (litBlock p' object').bytes ↔
        p.view = p'.view ∧ p.projection = p'.projection ∧ object = object' := by
  refine ⟨fun p style => ?_, fun p style => ?_, fun p object => ?_, fun p object => ?_,
    fun p p' style style' => ⟨fun same => ?_, ?_⟩, fun p p' style style' => ⟨fun same => ?_, ?_⟩,
    fun p p' object object' => ⟨fun same => ?_, ?_⟩,
    fun p p' object object' => ⟨fun same => ?_, ?_⟩⟩
  · exact ⟨GridUniform.gridWords_length p style, rfl, GridUniform.gridWords_holds p style,
      GridUniform.gridWords_serves p style⟩
  · exact ⟨GridUniform.gridWords_length _ _, GridUniform.gridBlock_holds p style,
      GridUniform.gridBlock_serves p style⟩
  · have holds := LitUniform.litWords_holds p object
    exact ⟨LitUniform.litWords_length p object, rfl, holds, (holds.map Float32.ofBits).serves⟩
  · have holds := LitUniform.litBlock_holds p object
    exact ⟨LitUniform.litBlock_length p object, holds, holds.serves⟩
  · have holds := GridUniform.gridWords_holds p style
    rw [same] at holds
    exact holds.unique (GridUniform.gridWords_holds p' style')
  · rintro ⟨rfl, rfl⟩
    rfl
  · have holds := GridUniform.gridBlock_holds p style
    rw [same] at holds
    exact holds.unique (GridUniform.gridBlock_holds p' style')
  · rintro ⟨rfl, rfl⟩
    rfl
  · have holds := LitUniform.litWords_holds p object
    rw [same] at holds
    exact holds.unique (LitUniform.litWords_holds p' object')
  · rintro ⟨view, projection, rfl⟩
    rw [litWords, view, projection, litWords]
  · have holds := LitUniform.litBlock_holds p object
    rw [same] at holds
    exact holds.unique (LitUniform.litBlock_holds p' object')
  · rintro ⟨view, projection, rfl⟩
    simp only [litBlock, litWords, Projector.map, view, projection]

end Gpu

end GroundPlane
