import Datum.Script.Command
import Mathlib.Data.List.Perm.Basic
import Mathlib.Data.List.Range

/-!
# Taking the arguments of a command

The runner of a command asks for its arguments in any order (`Request`), and each request hands some
of them out and leaves the others (`Request.taken`, `Request.left`).  A step neither loses an argument
nor hands one out twice, and keeps the order of those that it leaves (`Request.taken_append_left`,
`Request.left_sublist`); by induction, so does a run of requests.

A request for the next argument of a class takes the first that is left.  Since the arguments lie in
the order of their positions, all of the class that are left behind come later (`IsFirst.later`), and
so does everything that further requests of this class can take (`pairwise_takenBy`).
-/

namespace Datum.Script

namespace Arguments

/-! ### The first and the last of a class -/

/-- What taking the first argument of a class yields: the argument and all others in order, or
nothing if there is none. -/
def IsFirst (p : Argument → Bool) (args : Arguments) : Option Placed × Arguments → Prop
  | (some a, left) => ∃ before after, args = before ++ a :: after ∧ left = before ++ after ∧
      p a.arg = true ∧ ∀ b ∈ before, p b.arg = false
  | (none, left) => left = args ∧ ∀ b ∈ args, p b.arg = false

def IsLast (p : Argument → Bool) (args : Arguments) : Option Placed × Arguments → Prop
  | (some a, left) => ∃ before after, args = before ++ a :: after ∧ left = before ++ after ∧
      p a.arg = true ∧ ∀ b ∈ after, p b.arg = false
  | (none, left) => left = args ∧ ∀ b ∈ args, p b.arg = false

theorem isFirst_takeFirst (p : Argument → Bool) (args : Arguments) :
    IsFirst p args (takeFirst p args) := by
  induction args with
  | nil => exact ⟨rfl, fun _ h => absurd h List.not_mem_nil⟩
  | cons a rest ih =>
    rw [takeFirst]
    by_cases ha : p a.arg = true
    · rw [if_pos ha]
      exact ⟨[], rest, rfl, rfl, ha, fun _ h => absurd h List.not_mem_nil⟩
    · rw [if_neg ha]
      have ha' : p a.arg = false := Bool.not_eq_true _ ▸ ha
      rcases ht : takeFirst p rest with ⟨_ | b, left⟩
      · rw [ht] at ih
        obtain ⟨rfl, hnone⟩ := ih
        exact ⟨rfl, List.forall_mem_cons.mpr ⟨ha', hnone⟩⟩
      · rw [ht] at ih
        obtain ⟨before, after, rfl, rfl, hb, hbefore⟩ := ih
        exact ⟨a :: before, after, rfl, rfl, hb, List.forall_mem_cons.mpr ⟨ha', hbefore⟩⟩

theorem isLast_takeLast (p : Argument → Bool) (args : Arguments) :
    IsLast p args (takeLast p args) := by
  induction args with
  | nil => exact ⟨rfl, fun _ h => absurd h List.not_mem_nil⟩
  | cons a rest ih =>
    rw [takeLast]
    rcases ht : takeLast p rest with ⟨_ | b, left⟩
    · rw [ht] at ih
      obtain ⟨rfl, hnone⟩ := ih
      by_cases ha : p a.arg = true
      · simp only [if_pos ha]
        exact ⟨[], left, rfl, rfl, ha, hnone⟩
      · simp only [if_neg ha]
        exact ⟨rfl, List.forall_mem_cons.mpr ⟨Bool.not_eq_true _ ▸ ha, hnone⟩⟩
    · rw [ht] at ih
      obtain ⟨before, after, rfl, rfl, hb, hafter⟩ := ih
      exact ⟨a :: before, after, rfl, rfl, hb, hafter⟩

/-- At most one argument is taken, and all others stay in their order. -/
def Removes (args : Arguments) : Option Placed × Arguments → Prop
  | (some a, left) => ∃ before after, args = before ++ a :: after ∧ left = before ++ after
  | (none, left) => left = args

theorem IsFirst.removes {p : Argument → Bool} {args : Arguments} :
    ∀ {r : Option Placed × Arguments}, IsFirst p args r → Removes args r
  | (some _, _), ⟨before, after, ha, hl, _, _⟩ => ⟨before, after, ha, hl⟩
  | (none, _), ⟨hl, _⟩ => hl

theorem IsLast.removes {p : Argument → Bool} {args : Arguments} :
    ∀ {r : Option Placed × Arguments}, IsLast p args r → Removes args r
  | (some _, _), ⟨before, after, ha, hl, _, _⟩ => ⟨before, after, ha, hl⟩
  | (none, _), ⟨hl, _⟩ => hl

theorem Removes.perm : ∀ {args : Arguments} {r : Option Placed × Arguments}, Removes args r →
    (r.1.toList ++ r.2).Perm args
  | _, (some a, _), ⟨before, after, rfl, rfl⟩ => by
    have h : (a :: (before ++ after)).Perm (before ++ a :: after) := List.perm_middle.symm
    exact h
  | _, (none, _), rfl => List.Perm.refl _

theorem Removes.sublist : ∀ {args : Arguments} {r : Option Placed × Arguments}, Removes args r →
    r.2.Sublist args
  | _, (some a, _), ⟨before, after, rfl, rfl⟩ =>
    List.Sublist.append_left (List.sublist_cons_self a after) before
  | _, (none, _), rfl => List.Sublist.refl _

/-- What is left of a class behind its first argument comes later in the command. -/
theorem IsFirst.later {p : Argument → Bool} {args left : Arguments} {a b : Placed}
    (h : IsFirst p args (some a, left)) (hs : args.Pairwise fun x y => x.position < y.position)
    (hb : b ∈ left) (hp : p b.arg = true) : a.position < b.position := by
  obtain ⟨before, after, rfl, rfl, -, hbefore⟩ := h
  have hafter : b ∈ after := by
    rcases List.mem_append.mp hb with hb | hb
    · rw [hbefore b hb] at hp
      cases hp
    · exact hb
  exact (List.pairwise_cons.mp (List.pairwise_append.mp hs).2.1).1 b hafter

end Arguments

open Arguments

/-! ### Requests -/

inductive Next where
  | any
  | positional
  | keyed
deriving DecidableEq

namespace Next

def admits : Next → Argument → Bool
  | any, _ => true
  | positional, arg => arg.key.isNone
  | keyed, arg => arg.key.isSome

def take : Next → Arguments → Option Placed × Arguments
  | any => nextArg
  | positional => nextPos
  | keyed => nextKey

theorem isFirst_take (n : Next) (args : Arguments) : IsFirst n.admits args (n.take args) := by
  cases n <;> exact isFirst_takeFirst _ args

end Next

def hasKey (key : String) (arg : Argument) : Bool :=
  arg.key = some key

theorem isLast_lookup (key : String) (args : Arguments) :
    IsLast (hasKey key) args (args.lookup key) :=
  isLast_takeLast _ args

/-- The reading of a value takes what looking it up takes, whether it can be read or not. -/
theorem lookupRead_eq {α : Type} [FromArgument α] (key : String) (args : Arguments) :
    (args.lookupRead key : Except ArgumentFault (Option α) × Arguments) =
      (match (args.lookup key).1 with
        | some a => a.arg.read.map some
        | none => .ok none, (args.lookup key).2) := by
  unfold lookupRead
  rcases args.lookup key with ⟨_ | a, left⟩ <;> rfl

/-- What the runner of a command may ask of its arguments. -/
inductive Request : Type 1 where
  | next (n : Next)
  | lookup (key : String)
  | lookupRead (α : Type) [FromArgument α] (key : String)
  | rest
  | rejectRest

namespace Request

def taken : Request → Arguments → List Placed
  | next n, args => (n.take args).1.toList
  | lookup key, args => (args.lookup key).1.toList
  | lookupRead _ key, args => (args.lookup key).1.toList
  | rest, args => args.rest.1
  | rejectRest, _ => []

def left : Request → Arguments → Arguments
  | next n, args => (n.take args).2
  | lookup key, args => (args.lookup key).2
  | lookupRead α key, args => (args.lookupRead key : Except ArgumentFault (Option α) × Arguments).2
  | rest, args => args.rest.2
  | rejectRest, args => args

/-- The class of a request for the next argument. -/
def next? : Request → Option Next
  | next n => some n
  | _ => none

/-- **A request neither loses an argument nor hands one out twice.** -/
theorem taken_append_left (r : Request) (args : Arguments) :
    (r.taken args ++ r.left args).Perm args := by
  cases r with
  | next n => exact (n.isFirst_take args).removes.perm
  | lookup key => exact (isLast_lookup key args).removes.perm
  | lookupRead α key =>
    rw [taken, left, lookupRead_eq]
    exact (isLast_lookup key args).removes.perm
  | rest =>
    rw [taken, left, Arguments.rest, List.append_nil]
  | rejectRest => exact List.Perm.refl _

theorem left_sublist (r : Request) (args : Arguments) : (r.left args).Sublist args := by
  cases r with
  | next n => exact (n.isFirst_take args).removes.sublist
  | lookup key => exact (isLast_lookup key args).removes.sublist
  | lookupRead α key =>
    rw [left, lookupRead_eq]
    exact (isLast_lookup key args).removes.sublist
  | rest => exact List.nil_sublist args
  | rejectRest => exact List.Sublist.refl _

end Request

/-! ### Runs of requests -/

/-- A request with the arguments that were handed out for it. -/
structure Serving where
  request : Request
  taken : List Placed

/-- Serves requests one after the other, and tells what is left in the end. -/
def serve : List Request → Arguments → List Serving × Arguments
  | [], args => ([], args)
  | r :: rest, args =>
    (⟨r, r.taken args⟩ :: (serve rest (r.left args)).1, (serve rest (r.left args)).2)

def handedOut (servings : List Serving) : List Placed :=
  servings.flatMap (·.taken)

/-- The arguments that were handed out as the next of a class. -/
def takenBy (n : Next) (servings : List Serving) : List Placed :=
  handedOut (servings.filter fun s => s.request.next? = some n)

theorem handedOut_cons (s : Serving) (servings : List Serving) :
    handedOut (s :: servings) = s.taken ++ handedOut servings := rfl

theorem handedOut_append_left (requests : List Request) (args : Arguments) :
    (handedOut (serve requests args).1 ++ (serve requests args).2).Perm args := by
  induction requests generalizing args with
  | nil => exact List.Perm.refl _
  | cons r rest ih =>
    rw [serve, handedOut_cons, List.append_assoc]
    exact ((ih (r.left args)).append_left _).trans (r.taken_append_left args)

theorem serve_left_sublist (requests : List Request) (args : Arguments) :
    (serve requests args).2.Sublist args := by
  induction requests generalizing args with
  | nil => exact List.Sublist.refl _
  | cons r rest ih => exact (ih (r.left args)).trans (r.left_sublist args)

theorem takenBy_cons_of_next (n : Next) (taken : List Placed) (servings : List Serving) :
    takenBy n (⟨.next n, taken⟩ :: servings) = taken ++ takenBy n servings := by
  rw [takenBy, List.filter_cons_of_pos (by simp [Request.next?]), handedOut_cons, takenBy]

theorem takenBy_cons_of_ne {n : Next} {r : Request} (h : r.next? ≠ some n) (taken : List Placed)
    (servings : List Serving) : takenBy n (⟨r, taken⟩ :: servings) = takenBy n servings := by
  rw [takenBy, List.filter_cons_of_neg (by simpa using h), takenBy]

theorem Request.eq_next_of_next? {n : Next} : ∀ {r : Request}, r.next? = some n → r = .next n
  | .next _, h => congrArg Request.next (Option.some.inj h)

theorem mem_takenBy {n : Next} {requests : List Request} {args : Arguments} {b : Placed}
    (h : b ∈ takenBy n (serve requests args).1) : n.admits b.arg = true ∧ b ∈ args := by
  induction requests generalizing args with
  | nil => cases h
  | cons r rest ih =>
    rw [serve] at h
    by_cases hr : r.next? = some n
    · obtain rfl := Request.eq_next_of_next? hr
      rw [takenBy_cons_of_next] at h
      rcases List.mem_append.mp h with h | h
      · have hf := n.isFirst_take args
        rw [Request.taken] at h
        rcases ht : n.take args with ⟨_ | a, left⟩
        · rw [ht] at h
          cases h
        · rw [ht] at h hf
          obtain rfl := List.mem_singleton.mp h
          obtain ⟨before, after, rfl, -, ha, -⟩ := hf
          exact ⟨ha, List.mem_append_right _ List.mem_cons_self⟩
      · exact (ih h).imp_right fun hb => (Request.left_sublist _ args).subset hb
    · rw [takenBy_cons_of_ne hr] at h
      exact (ih h).imp_right fun hb => (r.left_sublist args).subset hb

/-- **The arguments handed out as the next of a class come in the order of their positions**, whatever
is asked for in between. -/
theorem pairwise_takenBy (n : Next) (requests : List Request) {args : Arguments}
    (hs : args.Pairwise fun x y => x.position < y.position) :
    (takenBy n (serve requests args).1).Pairwise fun x y => x.position < y.position := by
  induction requests generalizing args with
  | nil => exact List.Pairwise.nil
  | cons r rest ih =>
    have hleft := ih (hs.sublist (r.left_sublist args))
    rw [serve]
    by_cases hr : r.next? = some n
    · obtain rfl := Request.eq_next_of_next? hr
      have hf := n.isFirst_take args
      rw [takenBy_cons_of_next, Request.taken]
      rw [Request.left] at hleft ⊢
      rcases ht : n.take args with ⟨_ | a, left⟩
      · rw [ht] at hleft
        exact hleft
      · rw [ht] at hf hleft
        refine List.pairwise_cons.mpr ⟨fun b hb => ?_, hleft⟩
        obtain ⟨hadmits, hmem⟩ := mem_takenBy hb
        exact hf.later hs hmem hadmits
    · rw [takenBy_cons_of_ne hr]
      exact hleft

/-! ### The arguments of a command -/

theorem map_position_arguments (c : Command) :
    c.arguments.map (·.position) = List.range c.args.length := by
  rw [Command.arguments, List.map_map, List.range_eq_range']
  exact List.zipIdx_map_snd 0 c.args

theorem pairwise_arguments (c : Command) :
    c.arguments.Pairwise fun x y => x.position < y.position := by
  rw [← List.pairwise_map (f := Placed.position) (R := (· < ·)), map_position_arguments]
  exact List.pairwise_lt_range

theorem getElem?_of_mem_arguments {c : Command} {a : Placed} (h : a ∈ c.arguments) :
    c.args[a.position]? = some a.arg := by
  obtain ⟨⟨arg, i⟩, hx, rfl⟩ := List.mem_map.mp h
  exact List.mk_mem_zipIdx_iff_getElem?.mp hx

theorem rejectRest_eq (args : Arguments) :
    args.rejectRest = match args.head? with
      | some a => .error (.unexpected a.arg)
      | none => .ok () := by
  cases args <;> rfl

/-- **The arguments of a command are neither lost nor handed out twice.**  After any requests, those
handed out and those left are the arguments of the command at their positions, and those left are in
their order.  The next ones of a class came in the order of their positions and are of the class, and
what comes next is the first of it that is left.  Looking up a key takes the last argument with it
that is left, reading its value takes the same one even if it cannot be read, and the rest is refused,
by its first argument, unless all have been handed out. -/
theorem arguments_accounted_for (c : Command) (requests : List Request) :
    let servings := (serve requests c.arguments).1
    let left := (serve requests c.arguments).2
    ((handedOut servings ++ left).map (·.position)).Perm (List.range c.args.length) ∧
    (∀ a ∈ handedOut servings ++ left, c.args[a.position]? = some a.arg) ∧
    left.Sublist c.arguments ∧
    (∀ n, ((takenBy n servings).map (·.position)).Pairwise (· < ·) ∧
      (∀ a ∈ takenBy n servings, n.admits a.arg = true) ∧
      IsFirst n.admits left (n.take left)) ∧
    (∀ key, IsLast (hasKey key) left (left.lookup key)) ∧
    (∀ (α : Type) [FromArgument α] (key : String),
      (left.lookupRead key : Except ArgumentFault (Option α) × Arguments) =
        (match (left.lookup key).1 with
          | some a => a.arg.read.map some
          | none => .ok none, (left.lookup key).2)) ∧
    (left.rejectRest = .ok () ↔
      ((handedOut servings).map (·.position)).Perm (List.range c.args.length)) ∧
    (∀ a, left.head? = some a → left.rejectRest = .error (.unexpected a.arg)) := by
  intro servings left
  have hperm : (handedOut servings ++ left).Perm c.arguments :=
    handedOut_append_left requests c.arguments
  have hpositions : ((handedOut servings ++ left).map (·.position)).Perm
      (List.range c.args.length) := map_position_arguments c ▸ hperm.map _
  refine ⟨hpositions, fun a ha => getElem?_of_mem_arguments (hperm.subset ha),
    serve_left_sublist _ _, fun n => ⟨?_, fun a ha => (mem_takenBy ha).1, n.isFirst_take _⟩,
    fun key => isLast_lookup key _, fun α _ key => lookupRead_eq key _, ⟨fun h => ?_, fun h => ?_⟩,
    fun a ha => ?_⟩
  · exact List.pairwise_map.mpr (pairwise_takenBy n requests (pairwise_arguments c))
  · have hnil : left = [] := by
      rw [rejectRest_eq] at h
      cases hl : left with
      | nil => rfl
      | cons a rest =>
        rw [hl] at h
        cases h
    rwa [hnil, List.append_nil] at hpositions
  · have hlen := hpositions.length_eq.trans h.length_eq.symm
    rw [List.length_map, List.length_map, List.length_append] at hlen
    have hnil : left = [] := List.length_eq_zero_iff.mp (by omega)
    rw [hnil]
    rfl
  · rw [rejectRest_eq, ha]

def repeatedKey : Command :=
  ⟨"cast", [⟨some "n", "1"⟩, ⟨none, "x"⟩, ⟨some "n", "y"⟩, ⟨none, "z"⟩], false, 1⟩

theorem arguments_accounted_for_repeatedKey :
    let requests := [.lookupRead Int32 "n", .next .positional, .rejectRest, .lookup "n"]
    let (servings, left) := serve requests repeatedKey.arguments
    (handedOut servings).map (·.position) = [2, 1, 0] ∧
    (∀ a ∈ handedOut servings ++ left, repeatedKey.args[a.position]? = some a.arg) ∧
    left.head? = some ⟨3, none, "z"⟩ ∧ left.rejectRest = .error (.unexpected ⟨none, "z"⟩) := by
  have h := arguments_accounted_for repeatedKey
    [.lookupRead Int32 "n", .next .positional, .rejectRest, .lookup "n"]
  exact ⟨by decide, h.2.1, by decide, h.2.2.2.2.2.2.2 ⟨3, none, "z"⟩ (by decide)⟩

end Datum.Script
