import Mathlib
import Logline.BufferPool

/-!
# Discipline of buffers

Buffers go from the pool into someone's hands, from there under a name or out of the pool for good, and
back. Each operation at a desk is a sequence of such moves, and a move takes a buffer from one place to
another: so no buffer is ever in two places, and none is lost. `Balanced` says this together with what the
counters of the pool tell; it keeps account of the buffers that are in hand in the middle of an operation.

Main statement: `balanced_run`. After any operations no buffer is in hand and the desk is balanced.
-/

namespace Logline

namespace BufferDesk

/-! ### Operations -/

/-- What can be done at a desk. -/
inductive Operation where
  | acquire (name : String)
  | write (name : String) (change : Bytes → Bytes)
  /-- The end of a handle, whether it is asked for or not. -/
  | release (name : String)
  /-- The end of several handles, one after the other, on the way out of a panic. -/
  | unwind (names : List String)
  | abandon (written : Bytes)
  | detach (name : String)
  | releaseDetached (name : String)
  | releaseForeign

/-- The buffer that was detached last under a name. -/
def findDetached? (desk : BufferDesk) (name : String) : Option (String × Buffer) :=
  desk.detached.find? fun d => d.1 == name

/-- How many buffers are given back when handles end in turn. -/
def unwound (desk : BufferDesk) : List String → Nat
  | [] => 0
  | name :: names => (desk.find? name).toList.length + (desk.release name).unwound names

namespace Operation

/-- Carries out an operation. -/
def perform (desk : BufferDesk) : Operation → BufferDesk
  | .acquire name => desk.acquire name
  | .write name change => desk.update name change
  | .release name => desk.release name
  | .unwind names => names.foldl BufferDesk.release desk
  | .abandon written => desk.abandon written
  | .detach name => desk.detach name
  | .releaseDetached name => desk.releaseDetached name
  | .releaseForeign => desk.releaseForeign

/-- How many buffers are taken out of the pool. -/
def acquired : Operation → Nat
  | .acquire _ => 1
  | .abandon _ => 1
  | _ => 0

/-- How many buffers are given to the pool. A handle that takes the place of another one puts an end to it,
and a name under which nothing is held gives nothing. -/
def returned (desk : BufferDesk) : Operation → Nat
  | .acquire name => (desk.find? name).toList.length
  | .release name => (desk.find? name).toList.length
  | .unwind names => desk.unwound names
  | .releaseDetached name => (desk.findDetached? name).toList.length
  | .abandon _ => 1
  | .releaseForeign => 1
  | .write _ _ => 0
  | .detach _ => 0

/-- How many buffers are made outside the pool. -/
def brought : Operation → Nat
  | .releaseForeign => 1
  | _ => 0

end Operation

/-- Carries out operations in turn. -/
def run (desk : BufferDesk) (ops : List Operation) : BufferDesk := ops.foldl Operation.perform desk

def acquired (ops : List Operation) : Nat := (ops.map Operation.acquired).sum

def brought (ops : List Operation) : Nat := (ops.map Operation.brought).sum

def returned (desk : BufferDesk) : List Operation → Nat
  | [] => 0
  | op :: ops => op.returned desk + (op.perform desk).returned ops

/-! ### Balance -/

/-- The numbers of all buffers: the idle ones, the held, the detached, and those in hand. -/
def ids (desk : BufferDesk) (hand : List Buffer) : List Nat :=
  desk.pool.idle.map Buffer.id ++ desk.held.map (·.2.id) ++ desk.detached.map (·.2.id) ++
    hand.map Buffer.id

/-- The buffers with these numbers are different ones, they were all made, and there are as many as the
pool has made and were brought to it. -/
structure Placed (ids : List Nat) (pool : BufferPool) (brought : Nat) : Prop where
  exclusive : ids.Nodup
  known : ∀ id ∈ ids, id < pool.nextId
  conserved : pool.allocated + brought = ids.length

theorem Placed.moved {ids ids' : List Nat} {pool pool' : BufferPool} {brought : Nat}
    (h : Placed ids pool brought) (hperm : ids'.Perm ids) (hnext : pool'.nextId = pool.nextId)
    (hallocated : pool'.allocated = pool.allocated) : Placed ids' pool' brought where
  exclusive := hperm.nodup_iff.mpr h.exclusive
  known id hid := by
    rw [hnext]
    exact h.known id (hperm.mem_iff.mp hid)
  conserved := by rw [hallocated, hperm.length_eq, h.conserved]

theorem Placed.made {ids ids' : List Nat} {pool pool' : BufferPool} {brought brought' : Nat}
    (h : Placed ids pool brought) (hperm : ids'.Perm (pool.nextId :: ids))
    (hnext : pool'.nextId = pool.nextId + 1)
    (hcount : pool'.allocated + brought' = pool.allocated + brought + 1) : Placed ids' pool' brought' where
  exclusive := by
    refine hperm.nodup_iff.mpr (List.nodup_cons.mpr ⟨fun hmem => ?_, h.exclusive⟩)
    exact Nat.lt_irrefl _ (h.known pool.nextId hmem)
  known id hid := by
    rw [hnext]
    rcases List.mem_cons.mp (hperm.mem_iff.mp hid) with rfl | hmem
    · exact Nat.lt_succ_self _
    · exact Nat.lt_succ_of_lt (h.known id hmem)
  conserved := by rw [hcount, hperm.length_eq, List.length_cons, h.conserved]

theorem find?_release (desk : BufferDesk) (name : String) : (desk.release name).find? name = none := by
  rw [release]
  cases hfind : desk.find? name with
  | none => exact hfind
  | some buffer => simp [find?, others]

/-- Every buffer is in one place, and the counters are right, after so many buffers were taken out of the
pool, given to it, and made outside. -/
structure Balanced (desk : BufferDesk) (hand : List Buffer) (acquired returned brought : Nat) : Prop where
  placed : Placed (desk.ids hand) desk.pool brought
  names : (desk.held.map Prod.fst).Nodup
  empty : ∀ b ∈ desk.pool.idle, b.bytes = []
  acquired_eq : acquired = desk.pool.allocated + desk.pool.reused
  idle_eq : desk.pool.idle.length + desk.pool.reused = returned

namespace Balanced

variable {desk : BufferDesk} {hand : List Buffer} {acquired returned brought : Nat}

theorem initial : Balanced {} [] 0 0 0 where
  placed := ⟨List.nodup_nil, nofun, rfl⟩
  names := List.nodup_nil
  empty := nofun
  acquired_eq := rfl
  idle_eq := rfl

/-! ### Between the pool and the hand -/

theorem bytes_acquire (h : Balanced desk hand acquired returned brought) :
    desk.pool.acquire.1.bytes = [] := by
  cases hidle : desk.pool.idle with
  | nil => rw [BufferPool.acquire, hidle]
  | cons buffer rest =>
    have hfirst : buffer ∈ desk.pool.idle := hidle ▸ List.mem_cons_self
    rw [BufferPool.acquire, hidle]
    exact h.empty buffer hfirst

theorem takeOut (h : Balanced desk hand acquired returned brought) :
    Balanced { desk with pool := desk.pool.acquire.2 } (desk.pool.acquire.1 :: hand)
      (acquired + 1) returned brought := by
  obtain ⟨⟨idle, allocated, reused, nextId⟩, held, detached⟩ := desk
  obtain ⟨hplaced, hnames, hempty, hacquired, hidle⟩ := h
  have hcounted : acquired + 1 = allocated + reused + 1 := congrArg (· + 1) hacquired
  cases idle with
  | nil =>
    refine ⟨hplaced.made ?_ rfl (Nat.add_right_comm allocated 1 brought), hnames, hempty, ?_, hidle⟩
    · exact List.perm_middle
    · exact hcounted.trans (Nat.add_right_comm allocated reused 1)
  | cons buffer rest =>
    refine ⟨hplaced.moved ?_ rfl rfl, hnames, fun b hb => hempty b (List.mem_cons_of_mem _ hb), hcounted, ?_⟩
    · exact List.perm_middle
    · rw [← hidle]
      exact (Nat.succ_add_eq_add_succ rest.length reused).symm

theorem giveBack {buffer emptied : Buffer} (h : Balanced desk (buffer :: hand) acquired returned brought)
    (hid : emptied.id = buffer.id) :
    Balanced { desk with pool := desk.pool.release emptied } hand acquired (returned + 1) brought := by
  refine ⟨h.placed.moved ?_ rfl rfl, h.names, fun b hb => ?_, h.acquired_eq, ?_⟩
  · refine List.perm_iff_count.mpr fun n => ?_
    simp only [ids, BufferPool.release, List.map_append, List.map_cons, List.map_nil, List.count_append,
      List.count_cons, List.count_nil, hid]
    omega
  · rcases List.mem_append.mp hb with hidle | hlast
    · exact h.empty b hidle
    · rw [List.mem_singleton.mp hlast]
  · rw [BufferPool.release, List.length_append, ← h.idle_eq]
    exact Nat.add_right_comm _ 1 _

theorem makeForeign (h : Balanced desk hand acquired returned brought) :
    Balanced { desk with pool := desk.pool.makeForeign.2 } (desk.pool.makeForeign.1 :: hand)
      acquired returned (brought + 1) where
  placed := h.placed.made List.perm_middle rfl (Nat.add_assoc _ _ _).symm
  names := h.names
  empty := h.empty
  acquired_eq := h.acquired_eq
  idle_eq := h.idle_eq

/-! ### Between the hand and the places outside the pool -/

/-- A move that leaves the pool alone. -/
theorem moved {held detached : List (String × Buffer)} {hand' : List Buffer}
    (h : Balanced desk hand acquired returned brought)
    (hperm : (ids ⟨desk.pool, held, detached⟩ hand').Perm (desk.ids hand))
    (hnames : (held.map Prod.fst).Nodup) :
    Balanced ⟨desk.pool, held, detached⟩ hand' acquired returned brought :=
  ⟨h.placed.moved hperm rfl rfl, hnames, h.empty, h.acquired_eq, h.idle_eq⟩

/-- What is held apart from a name: the buffers before and behind the one that is held under it. -/
theorem split_held (h : Balanced desk hand acquired returned brought) {name : String} {buffer : Buffer}
    (hfind : desk.find? name = some buffer) :
    ∃ before behind, desk.held = before ++ (name, buffer) :: behind ∧
      desk.others name = before ++ behind := by
  obtain ⟨entry, hentry, rfl⟩ := Option.map_eq_some_iff.mp hfind
  obtain ⟨hname, before, behind, hheld, hbefore⟩ := List.find?_eq_some_iff_append.mp hentry
  obtain rfl : entry.1 = name := beq_iff_eq.mp hname
  have hnames := h.names
  rw [hheld, List.map_append, List.map_cons, List.nodup_middle, List.nodup_cons] at hnames
  refine ⟨before, behind, hheld, ?_⟩
  rw [others, hheld, List.filter_append, List.filter_cons_of_neg (by simp)]
  congr 1
  · exact List.filter_eq_self.mpr hbefore
  · -- names are different, so nothing behind the entry is held under its name
    refine List.filter_eq_self.mpr fun other hother => bne_iff_ne.mpr fun hsame => hnames.1 ?_
    exact List.mem_append_right _ (hsame ▸ List.mem_map_of_mem hother)

theorem takeHeld (h : Balanced desk hand acquired returned brought) {name : String} {buffer : Buffer}
    (hfind : desk.find? name = some buffer) :
    Balanced { desk with held := desk.others name } (buffer :: hand) acquired returned brought := by
  obtain ⟨before, behind, hheld, hothers⟩ := h.split_held hfind
  refine h.moved ?_ ?_
  · refine List.perm_iff_count.mpr fun n => ?_
    simp only [ids, hheld, hothers, List.map_append, List.map_cons, List.count_append, List.count_cons]
    omega
  · have hsublist : (desk.others name).Sublist desk.held := List.filter_sublist
    exact h.names.sublist (hsublist.map Prod.fst)

theorem hold {buffer : Buffer} (h : Balanced desk (buffer :: hand) acquired returned brought)
    {name : String} (hname : desk.find? name = none) :
    Balanced { desk with held := desk.held ++ [(name, buffer)] } hand acquired returned brought := by
  refine h.moved ?_ ?_
  · refine List.perm_iff_count.mpr fun n => ?_
    simp only [ids, List.map_append, List.map_cons, List.map_nil, List.count_append, List.count_cons,
      List.count_nil]
    omega
  · have hfree : ∀ other ∈ desk.held, other.1 ≠ name := by
      simpa [find?] using hname
    rw [List.map_append, List.nodup_append]
    refine ⟨h.names, List.nodup_singleton name, fun used hused last hlast => ?_⟩
    obtain ⟨other, hother, rfl⟩ := List.mem_map.mp hused
    rw [List.mem_singleton.mp hlast]
    exact hfree other hother

theorem takeDetached (h : Balanced desk hand acquired returned brought) {name : String}
    {found : String × Buffer} (hfind : desk.findDetached? name = some found) :
    Balanced { desk with detached := desk.detached.eraseP fun d => d.1 == name } (found.2 :: hand)
      acquired returned brought := by
  obtain ⟨hname, before, behind, hdetached, hbefore⟩ := List.find?_eq_some_iff_append.mp hfind
  have herased : (desk.detached.eraseP fun d => d.1 == name) = before ++ behind := by
    rw [hdetached, List.eraseP_append_right _ (by simpa using hbefore)]
    exact congrArg (before ++ ·) (List.eraseP_cons_of_pos hname)
  refine h.moved (List.perm_iff_count.mpr fun n => ?_) h.names
  rw [herased]
  simp only [ids, hdetached, List.map_append, List.map_cons, List.count_append, List.count_cons]
  omega

theorem putAside {buffer : Buffer} (h : Balanced desk (buffer :: hand) acquired returned brought)
    (name : String) :
    Balanced { desk with detached := (name, buffer) :: desk.detached } hand acquired returned brought := by
  refine h.moved (List.perm_iff_count.mpr fun n => ?_) h.names
  simp only [ids, List.map_cons, List.count_append, List.count_cons]
  omega

/-! ### Operations -/

/-- Writing changes neither the name under which a buffer is held nor its number. -/
theorem update (h : Balanced desk hand acquired returned brought) (name : String) (change : Bytes → Bytes) :
    Balanced (desk.update name change) hand acquired returned brought := by
  have hheld : ∀ {α : Type} (view : String × Buffer → α),
      (∀ key buffer bytes, view (key, { buffer with bytes := bytes }) = view (key, buffer)) →
      (desk.update name change).held.map view = desk.held.map view := by
    intro α view hview
    rw [BufferDesk.update, List.map_map]
    refine List.map_congr_left fun entry _ => ?_
    rw [Function.comp_apply]
    split
    · exact hview entry.1 entry.2 _
    · rfl
  have hnames := hheld Prod.fst fun _ _ _ => rfl
  have hids := hheld (·.2.id) fun _ _ _ => rfl
  refine h.moved (List.Perm.of_eq ?_) (hnames ▸ h.names)
  exact congrArg (fun held => _ ++ held ++ _ ++ _) hids

theorem release (h : Balanced desk hand acquired returned brought) (name : String) :
    Balanced (desk.release name) hand acquired (returned + (desk.find? name).toList.length) brought := by
  rw [BufferDesk.release]
  cases hfind : desk.find? name with
  | none => exact h
  | some buffer => exact (h.takeHeld hfind).giveBack rfl

theorem unwind (h : Balanced desk hand acquired returned brought) (names : List String) :
    Balanced (names.foldl BufferDesk.release desk) hand acquired (returned + desk.unwound names) brought := by
  induction names generalizing desk returned with
  | nil => exact h
  | cons name names ih =>
    have hrest := ih (h.release name)
    rwa [Nat.add_assoc] at hrest

theorem acquire (h : Balanced desk hand acquired returned brought) (name : String) :
    Balanced (desk.acquire name) hand (acquired + 1) (returned + (desk.find? name).toList.length) brought :=
  (h.takeOut.release name).hold (find?_release _ name)

theorem abandon (h : Balanced desk hand acquired returned brought) (written : Bytes) :
    Balanced (desk.abandon written) hand (acquired + 1) (returned + 1) brought :=
  h.takeOut.giveBack rfl

theorem detach (h : Balanced desk hand acquired returned brought) (name : String) :
    Balanced (desk.detach name) hand acquired returned brought := by
  rw [BufferDesk.detach]
  cases hfind : desk.find? name with
  | none => exact h
  | some buffer => exact (h.takeHeld hfind).putAside name

theorem releaseDetached (h : Balanced desk hand acquired returned brought) (name : String) :
    Balanced (desk.releaseDetached name) hand acquired
      (returned + (desk.findDetached? name).toList.length) brought := by
  rw [BufferDesk.releaseDetached, findDetached?]
  cases hfind : desk.detached.find? fun d => d.1 == name with
  | none => exact h
  | some found => exact (h.takeDetached hfind).giveBack rfl

theorem releaseForeign (h : Balanced desk hand acquired returned brought) :
    Balanced desk.releaseForeign hand acquired (returned + 1) (brought + 1) :=
  h.makeForeign.giveBack rfl

theorem perform (h : Balanced desk hand acquired returned brought) (op : Operation) :
    Balanced (op.perform desk) hand (acquired + op.acquired) (returned + op.returned desk)
      (brought + op.brought) := by
  cases op with
  | acquire name => exact h.acquire name
  | write name change => exact h.update name change
  | release name => exact h.release name
  | unwind names => exact h.unwind names
  | abandon written => exact h.abandon written
  | detach name => exact h.detach name
  | releaseDetached name => exact h.releaseDetached name
  | releaseForeign => exact h.releaseForeign

theorem run (h : Balanced desk hand acquired returned brought) (ops : List Operation) :
    Balanced (desk.run ops) hand (acquired + BufferDesk.acquired ops) (returned + desk.returned ops)
      (brought + BufferDesk.brought ops) := by
  induction ops generalizing desk acquired returned brought with
  | nil => exact h
  | cons op ops ih =>
    have hrest := ih (h.perform op)
    rwa [Nat.add_assoc, Nat.add_assoc, Nat.add_assoc] at hrest

end Balanced

/-- After any operations at a new desk it is balanced, with no buffer in hand. -/
theorem balanced_run (ops : List Operation) :
    Balanced (run {} ops) [] (acquired ops) (returned {} ops) (brought ops) := by
  have hrun := Balanced.initial.run ops
  rwa [Nat.zero_add, Nat.zero_add, Nat.zero_add] at hrun

/-- Of two handles one is detached and given back later; the other goes down in a panic before that. -/
example : (run {} [.acquire "a", .acquire "b", .write "b" (· ++ [0x78]), .detach "a", .unwind ["b"],
    .releaseDetached "a"]).pool = { idle := [⟨1, []⟩, ⟨0, []⟩], allocated := 2, nextId := 2 } := by
  decide

theorem find?_acquire (desk : BufferDesk) (name : String) :
    (desk.acquire name).find? name = some desk.pool.acquire.1 := by
  have hfree := find?_release { desk with pool := desk.pool.acquire.2 } name
  rw [find?, Option.map_eq_none_iff] at hfree
  rw [acquire, find?, List.find?_append, hfree]
  simp

end BufferDesk

end Logline
