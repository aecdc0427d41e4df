import GraphMarkup.FileTree
import GraphMarkup.Output.Writer

/-!
# Fragments of a page

What stands before and after the markup of a page are fragments: bytes that are passed on as they
are. They are known by names, and where they are kept does not matter to a page: a source of
fragments is anything that gives bytes for a name or says why it cannot.
-/

namespace GraphMarkup.Markup

/-- The two kinds of pages. -/
inductive Layout where
  | dot
  | llvm
deriving DecidableEq, Repr, Inhabited

/-- The name of the header, which both kinds of pages share. -/
def Layout.headerName (_ : Layout) : String := "header.snippet"

/-- The name of the footer. -/
def Layout.footerName : Layout → String
  | .dot => "footer.snippet"
  | .llvm => "llvmcfg.footer.snippet"

/-- What is put around the markup of a page. -/
structure Fragments where
  header : Bytes := []
  footer : Bytes := []
deriving DecidableEq, Repr, Inhabited

/-- Fragments by name. -/
abbrev FragmentSource := String → Except Fault Bytes

namespace FragmentSource

/-- Fragments held in memory. Of two under one name the first is given. -/
def ofList (held : List (String × Bytes)) : FragmentSource := fun name =>
  match held.lookup name with
  | some bytes => .ok bytes
  | none => .error (.missingFragment name)

/-- Fragments kept as files in one directory. -/
def ofDirectory (readFile : String → Except Fault Bytes) (directory : String) :
    FragmentSource := fun name => readFile (joinPath directory name)

end FragmentSource

/-- A fragment, or a failure that names it. -/
def readFragment (source : FragmentSource) (name : String) : Except Failure Bytes :=
  match source name with
  | .ok bytes => .ok bytes
  | .error cause => .error (.fragment name cause)

/-- The fragments of a page. The header is asked for first. -/
def Fragments.load (source : FragmentSource) (layout : Layout) : Except Failure Fragments := do
  let header ← readFragment source layout.headerName
  let footer ← readFragment source layout.footerName
  return ⟨header, footer⟩

end GraphMarkup.Markup
