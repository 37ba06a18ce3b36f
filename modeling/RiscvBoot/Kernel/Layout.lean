import RiscvBoot.Path

/-!
# Where the kernel image is

The build leaves the kernel at `<target directory>/<build target>/debug/<binary>`.
-/

set_option autoImplicit false

namespace RiscvBoot

def profileDir : Path := ⟨"debug"⟩

/-- The directory that the build writes to, and the name of the executable in it. -/
structure Layout where
  targetDir : Path
  binary : String
  deriving DecidableEq, Repr, Inhabited

namespace Layout

def image (l : Layout) (buildTarget : String) : Path :=
  ((l.targetDir.join ⟨buildTarget⟩).join profileDir).join ⟨l.binary⟩

/-- The layout seen from `base`, if its target directory is relative. -/
def within (l : Layout) (base : Path) : Layout :=
  if l.targetDir.isAbsolute then l else { l with targetDir := base.join l.targetDir }

end Layout

end RiscvBoot
