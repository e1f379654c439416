import Mathlib.Data.List.Nodup
import Mathlib.Order.Basic

/-!
# Handles that are made and freed

* `Ledger`         how many handles have been made, and which were freed, in order;
* `Ledger.Alive`   a handle that was made and not freed;
* `Ledger.Sound`   only handles that were made are freed, and none twice.
-/

namespace Handles

abbrev Handle := Nat

structure Ledger where
  next : Nat
  freed : List Handle

namespace Ledger

/-- one more handle, which is `l.next` -/
def make (l : Ledger) : Ledger := { l with next := l.next + 1 }

def free (l : Ledger) (h : Handle) : Ledger := { l with freed := h :: l.freed }

structure Alive (l : Ledger) (h : Handle) : Prop where
  made : h < l.next
  unfreed : h ∉ l.freed

structure Sound (l : Ledger) : Prop where
  made : ∀ h ∈ l.freed, h < l.next
  nodup : l.freed.Nodup

variable {l : Ledger} {h h' : Handle}

theorem Sound.make (hl : l.Sound) : l.make.Sound :=
  ⟨fun h hh => Nat.lt_succ_of_lt (hl.made h hh), hl.nodup⟩

theorem Sound.alive_next (hl : l.Sound) : l.make.Alive l.next := by
  refine ⟨Nat.lt_succ_self _, fun hf => ?_⟩
  exact Nat.lt_irrefl _ (hl.made _ hf)

theorem Alive.make (ha : l.Alive h) : l.make.Alive h := ⟨Nat.lt_succ_of_lt ha.made, ha.unfreed⟩

theorem Alive.ne_next (ha : l.Alive h) : h ≠ l.next := Nat.ne_of_lt ha.made

/-- a handle that is alive is freed once -/
theorem Sound.free (hl : l.Sound) (ha : l.Alive h) : (l.free h).Sound := by
  refine ⟨fun h' hh' => ?_, List.nodup_cons.mpr ⟨ha.unfreed, hl.nodup⟩⟩
  rcases List.mem_cons.mp hh' with rfl | hf
  · exact ha.made
  · exact hl.made h' hf

theorem Alive.free (ha : l.Alive h) (hne : h ≠ h') : (l.free h').Alive h := by
  refine ⟨ha.made, fun hf => ?_⟩
  rcases List.mem_cons.mp hf with heq | hf'
  · exact hne heq
  · exact ha.unfreed hf'

end Ledger
end Handles
