/-
Languages and where they are found: a language is registered under its id, and looked up by a file
extension or by a path. Of several that handle an extension, the one with the smallest id is found.
Extensions are compared without regard to the case of ASCII letters.
-/
import Std.Data.TreeMap
import ShaderText.Text.Path

namespace ShaderText

/-- What is known about a language. -/
structure Language where
  id : String
  name : String
  /-- The name of its mode, followed by its MIME type. -/
  modes : List String
  extensions : List String
  lineComment : Option String
  /-- The opener and the closer. -/
  blockComment : Option (String × String)
  deriving DecidableEq, Repr, Inhabited

namespace Language

/-- The OpenGL Shading Language. -/
def shader : Language where
  id := "glsl"
  name := "GLSL"
  modes := ["glsl", "text/x-glsl"]
  extensions := ["glsl"]
  lineComment := some "//"
  blockComment := some ("/*", "*/")

def mimeType? (l : Language) : Option String := l.modes[1]?

/-- Whether files with this extension are in the language. -/
def handles (l : Language) (extension : String) : Bool :=
  l.extensions.any fun known => known.toList.map Char.toLower == extension.toList.map Char.toLower

theorem handles_of_mem {l : Language} {extension : String} (h : extension ∈ l.extensions) :
    l.handles extension = true :=
  List.any_eq_true.2 ⟨extension, h, beq_self_eq_true _⟩

end Language

/-! ## The registry -/

/-- Languages by their id. -/
abbrev Registry := Std.TreeMap String Language

namespace Registry

def empty : Registry := ∅

/-- Registers a language; one with the same id is replaced. -/
def register (r : Registry) (l : Language) : Registry := r.insert l.id l

/-- The registry that knows the shading language. -/
def shader : Registry := empty.register Language.shader

/-- The ids in order. -/
def ids (r : Registry) : List String := r.keys

/-- The first language that handles an extension; dots in front of the extension are ignored. -/
def forExtension? (r : Registry) (extension : String) : Option Language :=
  let extension := String.ofList (extension.toList.dropWhile (· == '.'))
  r.values.find? (·.handles extension)

/-- The first language that handles the extension of the file that a path names. -/
def forPath? (r : Registry) (path : String) : Option Language :=
  (pathExtension? path).bind r.forExtension?

end Registry

end ShaderText
