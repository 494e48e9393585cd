/-
The word tables of the OpenGL Shading Language. Types, qualifiers, control words, the Boolean
constants and the built-in variables are keywords; `case`, `switch` and `struct` are listed as
introducing a block, and act as such only for a grammar in which they are keywords.
-/
import ShaderText.Grammar

namespace ShaderText.Grammar

/-- Keywords. -/
def shaderKeywords : String :=
  "attribute const uniform varying break continue void bool int uint float double struct
    vec2 vec3 vec4 dvec2 dvec3 dvec4 bvec2 bvec3 bvec4 ivec2 ivec3 ivec4 uvec2 uvec3 uvec4
    mat2 mat3 mat4 mat2x2 mat2x3 mat2x4 mat3x2 mat3x3 mat3x4 mat4x2 mat4x3 mat4x4 dmat2
    dmat3 dmat4 dmat2x2 dmat2x3 dmat2x4 dmat3x2 dmat3x3 dmat3x4 dmat4x2 dmat4x3 dmat4x4
    sampler1D sampler2D sampler3D samplerCube sampler2DRect sampler1DShadow
    sampler2DRectShadow sampler1DArray sampler2DArray sampler1DArrayShadow
    sampler2DArrayShadow samplerBuffer sampler2DMS sampler2DMSArray samplerCubeShadow
    samplerCubeArray samplerCubeArrayShadow isampler1D isampler2D isampler3D isamplerCube
    isampler2DRect isampler1DArray isampler2DArray isamplerBuffer isampler2DMS
    isampler2DMSArray isamplerCubeArray usampler1D usampler2D usampler3D usamplerCube
    usampler2DRect usampler1DArray usampler2DArray usamplerBuffer usampler2DMS
    usampler2DMSArray usamplerCubeArray do for while if else in out inout true false lowp
    mediump highp precision invariant discard return gl_FragCoord gl_FrontFacing
    gl_ClipDistance gl_PointCoord gl_PrimitiveID gl_SampleID gl_SamplePosition gl_FragColor
    gl_FragData gl_FragDepth gl_SampleMask"

/-- Built-in functions. -/
def shaderBuiltins : String :=
  "radians degrees sin cos tan asin acos atan pow exp log exp2 log2 sqrt inversesqrt abs
    sign floor ceil fract mod min max clamp mix step smoothstep length distance dot cross
    normalize faceforward reflect refract matrixCompMult lessThan lessThanEqual greaterThan
    greaterThanEqual equal notEqual any all not dFdx dFdy fwidth texture2D texture2DProj
    texture2DLod texture2DProjLod textureCube textureCubeLod"

/-- Words after which a statement of its own follows. -/
def shaderBlockKeywords : String := "case do else for if switch while struct"

/-- Atoms. -/
def shaderAtoms : String := "null"

/-- The grammar of the shading language. -/
def shader : Grammar where
  keywords := (WordSet.ofText shaderKeywords).contains
  builtins := (WordSet.ofText shaderBuiltins).contains
  blockKeywords := (WordSet.ofText shaderBlockKeywords).contains
  atoms := (WordSet.ofText shaderAtoms).contains

end ShaderText.Grammar
