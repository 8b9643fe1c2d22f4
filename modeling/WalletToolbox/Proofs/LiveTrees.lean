import WalletToolbox.Proofs.LiveTables
import Mathlib.Data.List.Perm.Basic

/-! The live headers as a tree with one active branch: what an insert and a prune do to
it, whatever the engine. -/

namespace WalletToolbox.Chaintracks
open List

def Continues (header parent : LiveBlockHeader) : Prop :=
  header.previousHash = parent.hash ∧ header.height = parent.height + 1 ∧
    header.chainWork = addWork parent.chainWork (convertBitsToWork header.bits)

structure LiveTree (rows : LiveTable) : Prop where
  distinct : rows.Distinct
  hashes : (rows.map (·.hash)).Nodup
  linked : ∀ header ∈ rows, ∀ id, header.previousHeaderId = some id →
    ∃ parent ∈ rows, parent.headerId = id ∧ parent.headerId < header.headerId ∧ Continues header parent
  surpassed : ∀ header ∈ rows, ∀ parent ∈ rows, header.previousHeaderId = some parent.headerId → parent.isChainTip = false

structure ActiveChain (rows : LiveTable) (tip : LiveBlockHeader) (older : List LiveBlockHeader) : Prop where
  linked : (tip :: older).IsChain Follows
  members : ∀ header, header ∈ tip :: older ↔ header ∈ rows ∧ header.isActive = true
  chainTip : tip.isChainTip = true
  rooted : ∃ root, (tip :: older).getLast? = some root ∧ root.previousHeaderId = none
  heaviest : ∀ header ∈ rows, header.chainWork ≤ tip.chainWork

theorem falls (linked : (header :: path).IsChain Follows) :
    (header :: path).Pairwise fun a b => b.headerId < a.headerId := by
  have transitive : IsTrans LiveBlockHeader fun a b => b.headerId < a.headerId := ⟨fun _ _ _ first second => second.trans first⟩
  exact isChain_iff_pairwise.mp (linked.imp fun _ _ follows => follows.2)

section
variable {rows : LiveTable} {tip : LiveBlockHeader} {older : List LiveBlockHeader}

theorem LiveTree.parent (tree : LiveTree rows) (mine : header ∈ rows) {id}
    (previous : header.previousHeaderId = some id) : ∃ parent, rows.byId id = some parent ∧ parent ∈ rows ∧ Follows header parent ∧ Continues header parent := by
  obtain ⟨parent, its, rfl, smaller, continues⟩ := tree.linked header mine id previous
  exact ⟨parent, tree.distinct.byId its, its, ⟨previous, smaller⟩, continues⟩

theorem LiveTree.continues (tree : LiveTree rows) {header parent} (mine : header ∈ rows) (its : parent ∈ rows)
    (follows : Follows header parent) : Continues header parent := by
  obtain ⟨stored, found, _, _, continues⟩ := tree.parent mine follows.1
  obtain rfl : parent = stored := by simpa [tree.distinct.byId its] using found
  exact continues

namespace ActiveChain

theorem stored (chain : ActiveChain rows tip older) (member : header ∈ tip :: older) : header ∈ rows :=
  ((chain.members header).mp member).1

theorem active (chain : ActiveChain rows tip older) (member : header ∈ tip :: older) : header.isActive = true :=
  ((chain.members header).mp member).2

theorem not_tip (tree : LiveTree rows) (linked : (header :: path).IsChain Follows)
    (stored : ∀ other ∈ header :: path, other ∈ rows) (member : other ∈ path) : other.isChainTip = false := by
  induction path generalizing header with
  | nil => exact (not_mem_nil member).elim
  | cons next path ih =>
    have follows := (isChain_cons_cons.mp linked).1
    cases member with
    | head => exact tree.surpassed header (stored _ (by simp)) _ (stored _ (by simp)) follows.1
    | tail _ rest => exact ih linked.tail (fun _ its => stored _ (mem_cons_of_mem _ its)) rest

theorem only_tip (chain : ActiveChain rows tip older) (tree : LiveTree rows) (mine : header ∈ rows)
    (active : header.isActive = true) (flagged : header.isChainTip = true) : header = tip := by
  have member := (chain.members header).mpr ⟨mine, active⟩
  cases member with
  | head => rfl
  | tail _ rest =>
    have this := not_tip tree chain.linked (fun _ => chain.stored) rest
    rw [this] at flagged
    contradiction

theorem tip_eq (chain : ActiveChain rows tip older) (tree : LiveTree rows) : rows.tip = some tip := by
  apply LiveTable.find_only (chain.stored (by simp))
  · simp [chain.active (mem_cons_self ..), chain.chainTip]
  · intro other its flags
    have both : other.isActive = true ∧ other.isChainTip = true := by simpa using flags
    exact chain.only_tip tree its both.1 both.2

theorem priorTip_eq (chain : ActiveChain rows tip older) (tree : LiveTree rows) (mine : oneBack ∈ rows) :
    rows.priorTip oneBack = some tip := by
  unfold LiveTable.priorTip
  by_cases flags : (oneBack.isActive && oneBack.isChainTip) = true
  · have both : oneBack.isActive = true ∧ oneBack.isChainTip = true := by simpa using flags
    rw [if_pos flags, chain.only_tip tree mine both.1 both.2]
  · rw [if_neg flags, chain.tip_eq tree]

end ActiveChain

structure Branch (rows : LiveTable) (branch : List LiveBlockHeader) (ancestor : LiveBlockHeader) : Prop where
  linked : (branch ++ [ancestor]).IsChain Follows
  stored : ∀ header ∈ branch ++ [ancestor], header ∈ rows
  inactive : ∀ header ∈ branch, header.isActive = false
  active : ancestor.isActive = true

theorem activeAncestor_cases {engine : LiveEngine} (exact : engine.Exact) (tree : LiveTree rows) (fuel : Nat) :
    ∀ header ∈ rows, header.headerId < fuel →
      engine.activeAncestor rows fuel header = .ok none ∨
      ∃ branch ancestor, Branch rows branch ancestor ∧ (branch ++ [ancestor]).head? = some header ∧
        engine.activeAncestor rows fuel header = .ok (some ancestor) := by
  induction fuel with
  | zero => exact fun header _ few => absurd few (Nat.not_lt_zero _)
  | succ fuel ih =>
    intro header mine enough
    cases flag : header.isActive with
    | true =>
      refine .inr ⟨[], header, ⟨by simp, by simpa using mine, by simp, flag⟩, rfl, ?_⟩
      simp [LiveEngine.activeAncestor, flag]
    | false =>
      cases previous : header.previousHeaderId with
      | none =>
        refine .inl ?_
        simp [LiveEngine.activeAncestor, flag, exact.previous, previous]
      | some id =>
        obtain ⟨parent, found, its, follows, _⟩ := tree.parent mine previous
        have step : engine.activeAncestor rows (fuel + 1) header = engine.activeAncestor rows fuel parent := by
          simp [LiveEngine.activeAncestor, flag, exact.previous, previous, found]
        have fewer : parent.headerId < fuel := by
          have := follows.2
          omega
        rw [step]
        refine (ih parent its fewer).imp_right ?_
        intro ⟨branch, ancestor, walked, head, result⟩
        obtain ⟨next, rest, shape⟩ : ∃ next rest, branch ++ [ancestor] = next :: rest := exists_cons_of_ne_nil (by simp)
        obtain rfl : next = parent := by simpa [shape] using head
        refine ⟨header :: branch, ancestor, ⟨?_, ?_, ?_, walked.active⟩, rfl, result⟩
        · rw [cons_append, shape]
          exact isChain_cons_cons.mpr ⟨follows, shape ▸ walked.linked⟩
        · rw [cons_append]
          exact forall_mem_cons.mpr ⟨mine, walked.stored⟩
        · exact forall_mem_cons.mpr ⟨flag, walked.inactive⟩

end

end WalletToolbox.Chaintracks
