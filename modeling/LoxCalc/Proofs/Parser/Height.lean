import LoxCalc.Proofs.Parser.Cursor
import Mathlib.Order.Bounds.Defs

/-!
# The height of returned trees

The limit on nesting counts groupings and prefix operations. Chains of binary operators deepen a
tree as well, one level per operator, and nothing limits their length: no bound holds for the
heights of all returned trees (`no_height_bound`).

What holds instead is a bound in the length of chains. Along a path, each of the at most
`maxNesting` groupings encloses one chain of each of the four levels, so that trees whose chains
have at most `m` operators have at most `(maxNesting + 1) * (4 * m + 1)` nodes on a path, and
`tower m maxNesting` has as many (`height_isGreatest`). The heights for a set of inputs are bounded
exactly when the lengths of their chains are (`height_bounded_iff`).
-/

namespace LoxCalc

namespace Expr

open Grammar (operators)

/-- The number of operators of a level in the chain that a tree is, as one run over the chain
consumes them. -/
def chainLength (level : Level) : Expr → Nat
  | .binary left operator _ =>
    if operator.kind ∈ operators level then left.chainLength level + 1 else 0
  | _ => 0

/-- The length of a longest chain in a tree. -/
def longestChain (e : Expr) : Nat :=
  e.foldMax fun node inner =>
    max inner (max (max (node.chainLength .equality) (node.chainLength .comparison))
      (max (node.chainLength .term) (node.chainLength .factor)))

/-- A literal has no chain. -/
@[simp]
theorem longestChain_literal (value : Literal) : (literal value).longestChain = 0 := rfl

/-- Parentheses add to no chain. -/
@[simp]
theorem longestChain_grouping (inner : Expr) :
    (grouping inner).longestChain = inner.longestChain :=
  Nat.max_zero _

/-- An operator in front of an operand adds to no chain. -/
@[simp]
theorem longestChain_unary (operator : Token) (operand : Expr) :
    (unary operator operand).longestChain = operand.longestChain :=
  Nat.max_zero _

/-- The chains of an operation are those of its operands and the ones that it ends. -/
theorem longestChain_binary_le_iff {left right : Expr} {operator : Token} {m : Nat} :
    (binary left operator right).longestChain ≤ m ↔ left.longestChain ≤ m ∧
      right.longestChain ≤ m ∧ ∀ level, (binary left operator right).chainLength level ≤ m := by
  have hmax : (binary left operator right).longestChain =
      max (max left.longestChain right.longestChain)
        (max (max ((binary left operator right).chainLength .equality)
          ((binary left operator right).chainLength .comparison))
          (max ((binary left operator right).chainLength .term)
            ((binary left operator right).chainLength .factor))) := rfl
  simp only [hmax, Nat.max_le]
  constructor
  · rintro ⟨⟨hl, hr⟩, ⟨he, hc⟩, ht, hf⟩
    refine ⟨hl, hr, fun level => ?_⟩
    cases level <;> assumption
  · rintro ⟨hl, hr, h⟩
    exact ⟨⟨hl, hr⟩, ⟨h _, h _⟩, h _, h _⟩

/-- No chain at the root is longer than the longest. -/
theorem chainLength_le_longestChain (level : Level) (e : Expr) :
    e.chainLength level ≤ e.longestChain := by
  cases e with
  | binary left operator right =>
    exact (longestChain_binary_le_iff.mp (Nat.le_refl _)).2.2 level
  | _ => exact Nat.zero_le _

/-- An operator of a level continues the chains of its level, and no others. -/
theorem chainLength_binary {level level' : Level} {operator : Token}
    (hop : operator.kind ∈ operators level) (left right : Expr) :
    (binary left operator right).chainLength level' =
      if level' = level then left.chainLength level + 1 else 0 := by
  rw [chainLength]
  by_cases h : level' = level
  · rw [if_pos h, h, if_pos hop]
  · -- No operator is of two levels.
    have hnot : operator.kind ∉ operators level' := by
      intro hop'
      revert hop hop' h
      cases level <;> cases level' <;> cases operator.kind <;> decide
    rw [if_neg hnot, if_neg h]

end Expr

namespace Grammar

open LoxCalc.Expr (chainLength_binary longestChain_binary_le_iff chainLength_le_longestChain)

/-! ## Chains bound the height -/

/-- The greatest height of a tree of a symbol with chains of at most `m` operators and at most `n`
groupings and prefix operations on a path. -/
def heightBound (m n : Nat) : Symbol → Nat
  | .chain level => n * (4 * m + 1) + level.height * m + 1
  | .unary | .primary => n * (4 * m + 1) + 1

/-- A chain may be higher than its operands by its operators. -/
theorem heightBound_operand (m n : Nat) (level : Level) :
    heightBound m n (.chain level) = heightBound m n (operand level) + m := by
  cases level <;> simp only [heightBound, operand, Level.height] <;> omega

/-- A grouping or prefix operation may be higher than what it encloses, at the price of nesting. -/
theorem heightBound_nested (m n : Nat) (s : Symbol) :
    heightBound m n s + 1 ≤ heightBound m (n + 1) .unary := by
  have hsucc : (n + 1) * (4 * m + 1) = n * (4 * m + 1) + (4 * m + 1) := Nat.succ_mul _ _
  cases s with
  | chain level => cases level <;> simp only [heightBound, Level.height] <;> omega
  | unary | primary => simp only [heightBound]; omega

/-- A tree of a symbol is no higher than allowed. A chain is held to what its operands may be and
its own operators make it, since its length is still to come. -/
def HeightWithin (m n : Nat) : Symbol → Expr → Prop
  | .chain level, e => e.height ≤ heightBound m n (operand level) + e.chainLength level
  | s, e => e.height ≤ heightBound m n s

/-- A chain adds as many nodes as it has operators, so that the bound takes it at its longest. -/
theorem HeightWithin.height_le {m n : Nat} {s : Symbol} {e : Expr} (h : HeightWithin m n s e)
    (hm : e.longestChain ≤ m) : e.height ≤ heightBound m n s := by
  -- Only a chain can be higher than its operand, and only by its length.
  cases s with
  | chain level =>
    have hchain := chainLength_le_longestChain level e
    rw [HeightWithin] at h
    rw [heightBound_operand]
    omega
  | unary | primary => exact h

/-- Every tree is no higher than its chains and its nesting allow. -/
theorem Derives.heightWithin {s : Symbol} {word : List Token} {e : Expr} (h : Derives s word e)
    (m : Nat) : e.longestChain ≤ m → ∀ n, e.nesting ≤ n → HeightWithin m n s e := by
  induction h with
  | operand _ ih =>
    -- A chain of one operand; if the operand is a chain itself, its length is known by now.
    intro hm n hn
    exact Nat.le_add_right_of_le ((ih hm n hn).height_le hm)
  | @binary level word word' left right operator _ hop _ ihl ihr =>
    intro hm n hn
    obtain ⟨hml, hmr, -⟩ := longestChain_binary_le_iff.mp hm
    obtain ⟨hnl, hnr⟩ := Nat.max_le.mp hn
    have hl := ihl hml n hnl
    have hr := (ihr hmr n hnr).height_le hmr
    -- The operator lifts the tree by one, and lengthens its chain by one.
    rw [HeightWithin] at hl ⊢
    rw [Expr.height_binary, chainLength_binary hop, if_pos rfl]
    omega
  | @unary operator word e _ _ ih =>
    intro hm n hn
    rw [Expr.longestChain_unary] at hm
    rw [Expr.nesting_unary] at hn
    obtain ⟨n, rfl⟩ := Nat.exists_eq_add_one.mpr (Nat.zero_lt_of_lt hn)
    have hinner := (ih hm n (Nat.le_of_succ_le_succ hn)).height_le hm
    exact Nat.le_trans (Nat.succ_le_succ hinner) (heightBound_nested m n .unary)
  | primary _ ih => exact ih
  | trueWord _ | falseWord _ | nilWord _ | carried _ _ =>
    intro _ n _
    exact Nat.succ_le_succ (Nat.zero_le _)
  | @grouping opening closing word e _ _ _ ih =>
    intro hm n hn
    rw [Expr.longestChain_grouping] at hm
    rw [Expr.nesting_grouping] at hn
    obtain ⟨n, rfl⟩ := Nat.exists_eq_add_one.mpr (Nat.zero_lt_of_lt hn)
    have hinner := (ih hm n (Nat.le_of_succ_le_succ hn)).height_le hm
    exact Nat.le_trans (Nat.succ_le_succ hinner) (heightBound_nested m n expression)

/-- A tree is higher than any of its chains is long. -/
theorem Derives.longestChain_lt_height {s : Symbol} {word : List Token} {e : Expr}
    (h : Derives s word e) : e.longestChain < e.height := by
  -- A chain runs down the left operands, and each of its operators is a node.
  induction h with
  | operand _ ih | primary _ ih => exact ih
  | @binary level word word' left right operator _ _ _ ihl ihr =>
    rw [Expr.height_binary]
    refine Nat.lt_succ_of_le (longestChain_binary_le_iff.mpr ⟨by omega, by omega, fun level' => ?_⟩)
    have hleft := chainLength_le_longestChain level' left
    rw [Expr.chainLength]
    split <;> omega
  | unary _ _ ih =>
    rw [Expr.longestChain_unary, Expr.height_unary]
    omega
  | trueWord _ | falseWord _ | nilWord _ | carried _ _ => exact Nat.zero_lt_one
  | grouping _ _ _ ih =>
    rw [Expr.longestChain_grouping, Expr.height_grouping]
    omega

/-! ## Trees that are as high as their chains allow -/

/-- The number one, on the first line. -/
def one : Token := ⟨.number, "1", some (.number 1), 1⟩

/-- An operator of each level. -/
def someOperator : Level → Token
  | .equality => ⟨.equalEqual, "==", none, 1⟩
  | .comparison => ⟨.less, "<", none, 1⟩
  | .term => ⟨.plus, "+", none, 1⟩
  | .factor => ⟨.star, "*", none, 1⟩

/-- The operator is one of its level. -/
theorem someOperator_mem (level : Level) : (someOperator level).kind ∈ operators level := by
  cases level <;> decide

/-- The token stands for the number. -/
theorem derives_one : Derives .primary [one] (.literal (.number 1)) :=
  .carried (.inl rfl) rfl

/-- The token stands for the number as an operand of any level. -/
theorem derives_operand_one (level : Level) :
    Derives (operand level) [one] (.literal (.number 1)) := by
  cases level with
  | factor => exact .primary derives_one
  | _ => exact (Derives.primary derives_one).chain_of_unary _

/-- A chain that goes on with `k` more operators of its level, all applied to one. -/
def lengthen (level : Level) : Nat → Expr → Expr
  | 0, e => e
  | k + 1, e => .binary (lengthen level k e) (someOperator level) (.literal (.number 1))

/-- The tokens of a chain that goes on with `k` more operators of its level. -/
def lengthenWord (level : Level) : Nat → List Token → List Token
  | 0, word => word
  | k + 1, word => lengthenWord level k word ++ [someOperator level, one]

/-- The word of a longer chain derives it. -/
theorem Derives.lengthen {level : Level} {word : List Token} {e : Expr}
    (h : Derives (.chain level) word e) (k : Nat) :
    Derives (.chain level) (lengthenWord level k word) (Grammar.lengthen level k e) := by
  induction k with
  | zero => exact h
  | succ k ih => exact .binary ih (someOperator_mem level) (derives_operand_one level)

/-- Each more operator makes a tree higher by one. -/
theorem height_lengthen (level : Level) (k : Nat) (e : Expr) :
    (lengthen level k e).height = e.height + k := by
  have hpos := Expr.height_pos e
  induction k with
  | zero => rfl
  | succ k ih =>
    rw [lengthen, Expr.height_binary, ih, Expr.height_literal]
    omega

/-- Chains do not nest. -/
theorem nesting_lengthen (level : Level) (k : Nat) (e : Expr) :
    (lengthen level k e).nesting = e.nesting := by
  induction k with
  | zero => rfl
  | succ k ih =>
    rw [lengthen, Expr.nesting_binary, ih, Expr.nesting_literal, Nat.max_zero]

/-- More operators make the chain of their level longer and end every other. -/
theorem chainLength_lengthen_le (level level' : Level) (k : Nat) (e : Expr) :
    (lengthen level k e).chainLength level' ≤
      e.chainLength level' + if level' = level then k else 0 := by
  -- Each step is an operator of its own level, so that a chain of another level ends there.
  induction k with
  | zero => exact Nat.le_add_right _ _
  | succ k ih =>
    rw [lengthen, chainLength_binary (someOperator_mem level)]
    split at ih
    · next h =>
      subst h
      simp only [if_true]
      omega
    · next h =>
      rw [if_neg h, if_neg h]
      exact Nat.zero_le _

/-- The longest chain is the lengthened one, or as long as before. -/
theorem longestChain_lengthen_le (level : Level) {k m : Nat} {e : Expr}
    (he : e.longestChain ≤ m) (hk : e.chainLength level + k ≤ m) :
    (lengthen level k e).longestChain ≤ m := by
  induction k with
  | zero => exact he
  | succ k ih =>
    refine longestChain_binary_le_iff.mpr ⟨ih (by omega), Nat.zero_le m, fun level' => ?_⟩
    have hle := chainLength_lengthen_le level level' (k + 1) e
    have hother := chainLength_le_longestChain level' e
    split at hle
    · next h =>
      subst h
      exact Nat.le_trans hle hk
    · exact Nat.le_trans hle (Nat.le_trans hother he)

/-- A tree that goes on with `m` operators of every level, from the tightest to the loosest. -/
def widen (m : Nat) (e : Expr) : Expr :=
  lengthen .equality m (lengthen .comparison m (lengthen .term m (lengthen .factor m e)))

/-- The tokens of a tree that goes on with `m` operators of every level. -/
def widenWord (m : Nat) (word : List Token) : List Token :=
  lengthenWord .equality m (lengthenWord .comparison m
    (lengthenWord .term m (lengthenWord .factor m word)))

/-- The widened word derives the widened tree. -/
theorem Derives.widen {word : List Token} {e : Expr} (h : Derives .unary word e) (m : Nat) :
    Derives expression (widenWord m word) (Grammar.widen m e) := by
  have hfactor : Derives (.chain .factor) word e := .operand h
  have hterm : Derives (.chain .term) _ _ := .operand (hfactor.lengthen m)
  have hcomparison : Derives (.chain .comparison) _ _ := .operand (hterm.lengthen m)
  have hequality : Derives (.chain .equality) _ _ := .operand (hcomparison.lengthen m)
  exact hequality.lengthen m

/-- Each level adds the length of its chain to the height. -/
theorem height_widen (m : Nat) (e : Expr) : (widen m e).height = e.height + 4 * m := by
  simp only [widen, height_lengthen]
  omega

/-- Widening does not nest. -/
theorem nesting_widen (m : Nat) (e : Expr) : (widen m e).nesting = e.nesting := by
  simp only [widen, nesting_lengthen]

/-- Chains that begin at a tree that is no operation grow to the length of each step. -/
theorem longestChain_widen_le {m : Nat} {e : Expr} (he : e.longestChain ≤ m)
    (hroot : ∀ level, e.chainLength level = 0) : (widen m e).longestChain ≤ m := by
  have hf (level : Level) := chainLength_lengthen_le .factor level m e
  have ht (level : Level) := chainLength_lengthen_le .term level m (lengthen .factor m e)
  have hc (level : Level) :=
    chainLength_lengthen_le .comparison level m (lengthen .term m (lengthen .factor m e))
  simp only [hroot] at hf
  -- What a step adds ends the chains of the looser levels, so that each step begins a new one.
  have hft := hf .term
  have hfc := hf .comparison
  have hfe := hf .equality
  have htc := ht .comparison
  have hte := ht .equality
  have hce := hc .equality
  simp only [reduceCtorEq, if_false] at hft hfc hfe htc hte hce
  refine longestChain_lengthen_le .equality (longestChain_lengthen_le .comparison
    (longestChain_lengthen_le .term (longestChain_lengthen_le .factor he ?_) ?_) ?_) ?_
  · rw [hroot]
    omega
  · omega
  · omega
  · omega

/-- `n` groupings around each other, each behind `m` operators of every level. -/
def tower (m : Nat) : Nat → Expr
  | 0 => widen m (.literal (.number 1))
  | n + 1 => widen m (.grouping (tower m n))

/-- The tokens of a tower. -/
def towerWord (m : Nat) : Nat → List Token
  | 0 => widenWord m [one]
  | n + 1 => widenWord m
    (⟨.leftParen, "(", none, 1⟩ :: towerWord m n ++ [⟨.rightParen, ")", none, 1⟩])

/-- The word of a tower derives it. -/
theorem derives_tower (m n : Nat) : Derives expression (towerWord m n) (tower m n) := by
  induction n with
  | zero => exact (Derives.primary derives_one).widen m
  | succ n ih => exact (Derives.primary (.grouping rfl ih rfl)).widen m

/-- Each storey is as high as four chains and what encloses them. -/
theorem height_tower (m n : Nat) : (tower m n).height = (n + 1) * (4 * m + 1) := by
  induction n with
  | zero =>
    rw [tower, height_widen, Expr.height_literal]
    omega
  | succ n ih =>
    rw [tower, height_widen, Expr.height_grouping, ih, Nat.succ_mul (n + 1)]
    omega

/-- A tower nests as often as it has storeys above the ground. -/
theorem nesting_tower (m n : Nat) : (tower m n).nesting = n := by
  induction n with
  | zero => rw [tower, nesting_widen, Expr.nesting_literal]
  | succ n ih => rw [tower, nesting_widen, Expr.nesting_grouping, ih]

/-- No chain of a tower is longer than those it was built with. -/
theorem longestChain_tower_le (m n : Nat) : (tower m n).longestChain ≤ m := by
  induction n with
  | zero => exact longestChain_widen_le (Nat.zero_le m) fun _ => rfl
  | succ n ih =>
    refine longestChain_widen_le ?_ fun _ => rfl
    rwa [Expr.longestChain_grouping]

end Grammar

namespace Parser

open Grammar

/-- Some call of `parse` on a token list returns the tree. -/
def Returns (ts : List Token) (e : Expr) : Prop :=
  ∃ calls, ((ofTokens ts).after calls).parse.1 = .ok e

/-- A returned tree is derived by the grammar and nests no deeper than allowed. -/
theorem Returns.derives {ts : List Token} {e : Expr} (h : Returns ts e) :
    ∃ word, Derives expression word e ∧ e.nesting ≤ maxNesting := by
  obtain ⟨calls, hok⟩ := h
  obtain ⟨word, -, hd, hn, -⟩ :=
    (parse_eq_ok_iff (reached_after ts calls).kind_eof).mp ⟨hok, rfl⟩
  exact ⟨word, hd, hn⟩

/-- The first call on an expression returns its tree. -/
theorem returns_of_derives {word : List Token} {e : Expr} (h : Derives expression word e)
    (hn : e.nesting ≤ maxNesting) : Returns word e :=
  ⟨0, (parse_ofTokens_of_derives h hn).1⟩

/-- Among the returned trees whose chains have at most `m` operators, the greatest height is that of
`maxNesting` groupings with a chain of `m` operators of each level between any two. -/
theorem height_isGreatest (m : Nat) :
    IsGreatest {h | ∃ ts e, Returns ts e ∧ e.longestChain ≤ m ∧ e.height = h}
      ((maxNesting + 1) * (4 * m + 1)) := by
  -- The tower attains the bound, and every tree of the grammar is within it.
  constructor
  · refine ⟨towerWord m maxNesting, tower m maxNesting, ?_, longestChain_tower_le m maxNesting,
      height_tower m maxNesting⟩
    exact returns_of_derives (derives_tower m maxNesting)
      (Nat.le_of_eq (nesting_tower m maxNesting))
  · rintro _ ⟨ts, e, hreturns, hm, rfl⟩
    obtain ⟨word, hd, hn⟩ := hreturns.derives
    have hle := (hd.heightWithin m hm maxNesting hn).height_le hm
    rw [expression, heightBound, Level.height] at hle
    rw [Nat.succ_mul]
    omega

/-- The heights of the trees returned for a set of inputs are bounded exactly when the lengths of
their chains are. With chains of at most `m` operators, the greatest height of all is
`(maxNesting + 1) * (4 * m + 1)`. -/
theorem height_bounded_iff (inputs : Set (List Token)) :
    ((∃ bound, ∀ ts ∈ inputs, ∀ e, Returns ts e → e.height ≤ bound) ↔
      ∃ m, ∀ ts ∈ inputs, ∀ e, Returns ts e → e.longestChain ≤ m) ∧
    ∀ m, IsGreatest {h | ∃ ts e, Returns ts e ∧ e.longestChain ≤ m ∧ e.height = h}
      ((maxNesting + 1) * (4 * m + 1)) := by
  refine ⟨⟨?_, ?_⟩, height_isGreatest⟩
  · -- A chain is no longer than its tree is high.
    rintro ⟨bound, hbound⟩
    refine ⟨bound, fun ts hts e he => ?_⟩
    obtain ⟨word, hd, -⟩ := he.derives
    exact Nat.le_of_lt (Nat.lt_of_lt_of_le hd.longestChain_lt_height (hbound ts hts e he))
  · rintro ⟨m, hm⟩
    exact ⟨_, fun ts hts e he => (height_isGreatest m).2 ⟨ts, e, he, hm ts hts e he, rfl⟩⟩

/-- A sum of 601 ones has a tree of height 601, though nothing in it nests, and no bound holds for
the heights of all returned trees. -/
theorem no_height_bound :
    (∃ e, Returns (lengthenWord .term 600 [one]) e ∧ e.nesting = 0 ∧ e.height = 601) ∧
    ¬∃ bound, ∀ ts e, Returns ts e → e.height ≤ bound := by
  have hsum (k : Nat) :
      Returns (lengthenWord .term k [one]) (lengthen .term k (.literal (.number 1))) := by
    have hterm := ((Derives.primary derives_one).chain_of_unary .term).lengthen k
    have hcomparison : Derives (.chain .comparison) _ _ := .operand hterm
    refine returns_of_derives (.operand hcomparison) ?_
    rw [nesting_lengthen]
    exact Nat.zero_le _
  refine ⟨⟨_, hsum 600, nesting_lengthen .term 600 _, height_lengthen .term 600 _⟩, ?_⟩
  rintro ⟨bound, hbound⟩
  have hle := hbound _ _ (hsum bound)
  rw [height_lengthen, Expr.height_literal] at hle
  omega

end Parser

end LoxCalc
