/-
  The constants of a frame, which every generated source declares. The declaration and the
  bytes are both made from one table of fields.
-/
import SurfaceShading.Material.Value
import SurfaceShading.Shader.NativeCode

namespace SurfaceShading

/-- A component of a 16-byte register, by the byte offset of a field. -/
def componentName (offset : Nat) : String :=
  match offset % 16 / 4 with
  | 0 => "x"
  | 1 => "y"
  | 2 => "z"
  | _ => "w"

/-- A field of the scene constants. -/
structure SceneField where
  nativeType : String
  name : String
  offset : Nat
  deriving Repr, DecidableEq

namespace SceneField

/-- The fields in the order of their declaration. -/
def all : List SceneField := [
  ⟨"float4x4", "View", 0⟩,
  ⟨"float4x4", "Projection", 64⟩,
  ⟨"float4x4", "Model", 128⟩,
  ⟨"float3", "LightDirection", 192⟩,
  ⟨"float", "LightIntensity", 204⟩,
  ⟨"float3", "CameraPosition", 208⟩,
  ⟨"float", "SkyLightIntensity", 220⟩,
  ⟨"float4", "SkyLightColor", 224⟩,
  ⟨"float4x4", "InvView", 240⟩,
  ⟨"float4x4", "InvProjection", 304⟩,
  ⟨"float4x4", "InvViewProjection", 368⟩,
  ⟨"float4x4", "LightViewProjection", 432⟩,
  ⟨"float4x4", "PrevViewProjection", 496⟩,
  ⟨"float4x4", "CurrViewProjection", 560⟩,
  ⟨"float2", "Jitter", 624⟩,
  ⟨"float2", "ScreenSize", 632⟩,
  ⟨"float", "NearPlane", 640⟩,
  ⟨"float", "FarPlane", 644⟩,
  ⟨"uint", "ShadowMode", 648⟩,
  ⟨"float", "ScenePadding", 652⟩]

/-- The line that declares the field. Matrices are stored by columns. -/
def declaration (f : SceneField) : String :=
  let major := if f.nativeType == "float4x4" then "column_major " else ""
  s!"    {major}{f.nativeType} {f.name} : packoffset(c{f.offset / 16}.{componentName f.offset});"

end SceneField

/-- How shadows are drawn. -/
inductive ShadowMode where
  | disabled
  | hard
  | filtered
  deriving Repr, DecidableEq

def ShadowMode.word : ShadowMode → UInt32
  | disabled => 0
  | hard => 1
  | filtered => 2

/-- A matrix of four rows and columns, by columns. -/
structure Matrix4 where
  cells : List Float32

namespace Matrix4

/-- The cell of a row and a column. -/
def cell (m : Matrix4) (row column : Nat) : Float32 := m.cells.getD (4 * column + row) 0

/-- The matrix with given cells. -/
def ofCells (f : Nat → Nat → Float32) : Matrix4 :=
  ⟨(List.range 16).map fun i => f (i % 4) (i / 4)⟩

def identity : Matrix4 := ofCells fun row column => if row = column then 1 else 0

instance : Mul Matrix4 where
  mul a b := ofCells fun row column =>
    a.cell row 0 * b.cell 0 column + a.cell row 1 * b.cell 1 column
      + a.cell row 2 * b.cell 2 column + a.cell row 3 * b.cell 3 column

/-- The determinant without one row and one column. -/
def minor (m : Matrix4) (row column : Nat) : Float32 :=
  let skip (n i : Nat) : Nat := if i < n then i else i + 1
  let c (i j : Nat) : Float32 := m.cell (skip row i) (skip column j)
  c 0 0 * (c 1 1 * c 2 2 - c 1 2 * c 2 1) - c 0 1 * (c 1 0 * c 2 2 - c 1 2 * c 2 0)
    + c 0 2 * (c 1 0 * c 2 1 - c 1 1 * c 2 0)

/-- The determinant of the remaining cells with the sign of its place. -/
def cofactor (m : Matrix4) (row column : Nat) : Float32 :=
  if (row + column) % 2 = 0 then m.minor row column else -m.minor row column

def determinant (m : Matrix4) : Float32 :=
  m.cell 0 0 * m.cofactor 0 0 + m.cell 0 1 * m.cofactor 0 1 + m.cell 0 2 * m.cofactor 0 2
    + m.cell 0 3 * m.cofactor 0 3

/-- The inverse; no cell of it is a number if there is none. -/
def inverse (m : Matrix4) : Matrix4 :=
  let scale := 1 / m.determinant
  ofCells fun row column => m.cofactor column row * scale

def words (m : Matrix4) : List UInt32 := m.cells.map Float32.toBits

end Matrix4

/-- The constants of a frame. -/
structure SceneConstants where
  view : Matrix4
  projection : Matrix4
  model : Matrix4
  lightDirection : List Float32
  lightIntensity : Float32
  cameraPosition : List Float32
  skyLightIntensity : Float32
  skyLightColor : List Float32
  inverseView : Matrix4
  inverseProjection : Matrix4
  inverseViewProjection : Matrix4
  lightViewProjection : Matrix4
  previousViewProjection : Matrix4
  currentViewProjection : Matrix4
  jitter : List Float32
  screenSize : List Float32
  nearPlane : Float32
  farPlane : Float32
  shadowMode : ShadowMode

namespace SceneConstants

/-- The constants before the first frame. -/
def initial : SceneConstants where
  view := .identity
  projection := .identity
  model := .identity
  lightDirection := [0, -1, 0]
  lightIntensity := 1
  cameraPosition := [0, 0, 0]
  skyLightIntensity := 1
  skyLightColor := [1, 1, 1, 1]
  inverseView := .identity
  inverseProjection := .identity
  inverseViewProjection := .identity
  lightViewProjection := .identity
  previousViewProjection := .identity
  currentViewProjection := .identity
  jitter := [0, 0]
  screenSize := [1, 1]
  nearPlane := 0.1
  farPlane := 1000
  shadowMode := .disabled

/-- Moves the camera for a new frame. What was the current view becomes the previous one. -/
def setCamera (scene : SceneConstants) (view projection : Matrix4) (position : List Float32) :
    SceneConstants :=
  let viewProjection := projection * view
  { scene with
    previousViewProjection := scene.currentViewProjection
    view := view
    projection := projection
    inverseView := view.inverse
    inverseProjection := projection.inverse
    inverseViewProjection := viewProjection.inverse
    currentViewProjection := viewProjection
    cameraPosition := position }

/-- The 32-bit words of the constants, in the order of the fields. -/
def words (s : SceneConstants) : List UInt32 :=
  s.view.words ++ s.projection.words ++ s.model.words
    ++ s.lightDirection.map Float32.toBits ++ [s.lightIntensity.toBits]
    ++ s.cameraPosition.map Float32.toBits ++ [s.skyLightIntensity.toBits]
    ++ s.skyLightColor.map Float32.toBits
    ++ s.inverseView.words ++ s.inverseProjection.words ++ s.inverseViewProjection.words
    ++ s.lightViewProjection.words ++ s.previousViewProjection.words
    ++ s.currentViewProjection.words
    ++ s.jitter.map Float32.toBits ++ s.screenSize.map Float32.toBits
    ++ [s.nearPlane.toBits, s.farPlane.toBits, s.shadowMode.word, 0]

/-- The version of the field table. -/
def version : Nat := 3

/-- The register of the buffer. -/
def register : Nat := 0

/-- The declaration of the buffer in native code. -/
def declaration : String :=
  NativeCode.ofLines
    ([s!"// SceneConstants v{version}", s!"cbuffer SceneConstants : register(b{register})",
      "\x7b"] ++ SceneField.all.map SceneField.declaration ++ ["\x7d;"])

end SceneConstants

end SurfaceShading
