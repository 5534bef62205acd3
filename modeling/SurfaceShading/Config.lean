/-
  Settings of the library, and its version.
-/
import SurfaceShading.Shader.Source

namespace SurfaceShading

/-- The version of the library. -/
def version : String := "0.1.0"

/-- Settings. The shared shader is the lighting shader that deferred shaders are completed
with; infrastructure shaders are those for which no default material is made. The table of
textures has `capacity` slots, the first of them at `baseRegister`. -/
structure Config where
  shaderDirectory : Option String
  cacheDirectory : Option String
  sharedShader : String
  infrastructure : List String
  capacity : UInt32
  baseRegister : UInt32
  bufferLimit : UInt32
  rootSlot : UInt32
  deriving Repr, DecidableEq

namespace Config

/-- No directories, buffers of at most 64 KiB, and the standard table of textures. -/
def standard : Config :=
  ⟨none, none, "Screen", ["Screen", "Sky"], SourceOptions.standard.capacity,
    SourceOptions.standard.baseRegister, 65536, 1⟩

instance : Inhabited Config := ⟨standard⟩

def isInfrastructure (config : Config) (shader : String) : Bool :=
  config.infrastructure.contains shader

/-- The options of generated sources. -/
def sourceOptions (config : Config) : SourceOptions := ⟨config.capacity, config.baseRegister⟩

end Config

end SurfaceShading
