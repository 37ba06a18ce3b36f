/-!
# Work on a state

Work that passes a state along is followed piece by piece: what comes next starts from the result
and the state that the work before it leaves.
-/

set_option autoImplicit false

namespace RiscvBoot

variable {σ α β : Type}

theorem run_bind (x : StateM σ α) (f : α → StateM σ β) (w : σ) :
    (x >>= f).run w = (f (x.run w).1).run (x.run w).2 := rfl

theorem run_get (w : σ) : (get : StateM σ σ).run w = (w, w) := rfl

end RiscvBoot
