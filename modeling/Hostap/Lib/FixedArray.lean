import Mathlib.Data.List.Basic

/-!
# Arrays of a fixed size that are filled from the front

A C structure keeps a list as an array of a fixed size and the number of its elements in use. `get`, `put`
and `move` are the accesses, which fail outside the array, and `used` is the list that is meant.

The loops of C over such a list are `forEach`, which a `return` or `break` in its body ends (`Flow.stop`),
`anyOf`, which looks for an element, and `updateEach`, which works on each element in its place. Each of them
is a recursion on the list where the number does not go beyond the array. `Fills` is the rule for a loop that
writes behind the last element of a list of limited length and ends where this is full.
-/

namespace FixedArray

/-- An index that is not one of the array. -/
structure BadIndex where
  index : Nat
  size : Nat
  deriving DecidableEq, Repr

variable {α β σ : Type} {n : Nat}

/-! ## Accesses -/

/-- Reads an element. -/
def get (v : Vector α n) (i : Nat) : Except BadIndex α :=
  if h : i < n then .ok v[i] else .error ⟨i, n⟩

/-- Writes an element. -/
def put (v : Vector α n) (i : Nat) (x : α) : Except BadIndex (Vector α n) :=
  if h : i < n then .ok (v.set i x) else .error ⟨i, n⟩

/-- `memmove()` of `len` elements within the array. -/
def move (v : Vector α n) (dst src len : Nat) : Except BadIndex (Vector α n) :=
  if dst + len ≤ n ∧ src + len ≤ n then
    .ok (Vector.ofFn fun i =>
      if dst ≤ i.val ∧ i.val < dst + len then v[src + (i.val - dst)]?.getD v[i] else v[i])
  else .error ⟨max dst src + len, n⟩

/-- Reads an element of a list that was received. -/
def readIndex (l : List α) (i : Nat) : Except BadIndex α :=
  match l[i]? with
  | some x => .ok x
  | none => .error ⟨i, l.length⟩

/-- `memcpy()` of `len` elements of a list that was received to the front of an array. -/
def copyIn (v : Vector α n) (l : List α) (off len : Nat) : Except BadIndex (Vector α n) :=
  if ¬ off + len ≤ l.length then .error ⟨off + len, l.length⟩
  else if ¬ len ≤ n then .error ⟨len, n⟩
  else .ok (Vector.ofFn fun i => if i.val < len then l[off + i.val]?.getD v[i] else v[i])

/-- The elements in use. -/
def used (v : Vector α n) (k : Nat) : List α := v.toList.take k

variable {v : Vector α n} {i k : Nat} {x : α}

theorem get_ok (h : i < n) : get v i = .ok v[i] := dif_pos h

theorem put_ok (h : i < n) : put v i x = .ok (v.set i x) := dif_pos h

theorem used_length (h : k ≤ n) : (used v k).length = k := by
  unfold used
  rw [List.length_take, Vector.length_toList]
  omega

@[simp] theorem used_zero : used v 0 = [] := rfl

theorem getElem?_used (h : k ≤ n) : (used v k)[i]? = if h' : i < k then some (v[i]) else none := by
  unfold used
  by_cases hi : i < k
  · rw [List.getElem?_take_of_lt hi, dif_pos hi,
      List.getElem?_eq_getElem (by rw [Vector.length_toList]; omega), Vector.getElem_toList]
  · rw [dif_neg hi, List.getElem?_eq_none]
    rw [List.length_take]
    omega

theorem used_succ (h : k < n) : used v (k + 1) = used v k ++ [v[k]] := by
  unfold used
  rw [List.take_add_one, List.getElem?_eq_getElem (by rw [Vector.length_toList]; exact h),
    Vector.getElem_toList]
  rfl

theorem mem_used_get (hk : k ≤ n) (h : i < k) : v[i] ∈ used v k := by
  apply List.mem_of_getElem? (i := i)
  rw [getElem?_used hk, dif_pos h]

/-- What is written behind the last element becomes the last one. -/
theorem used_put (h : k < n) : used (v.set k x) (k + 1) = used v k ++ [x] := by
  rw [used_succ h, Vector.getElem_set_self]
  unfold used
  rw [Vector.toList_set, List.take_set_of_le (Nat.le_refl k)]

theorem used_put_of_le (h : i < n) (hk : k ≤ i) : used (v.set i x) k = used v k := by
  unfold used
  rw [Vector.toList_set, List.take_set_of_le hk]

theorem used_set (h : i < n) : used (v.set i x) k = (used v k).set i x := by
  unfold used
  rw [Vector.toList_set, List.take_set]

theorem drop_used (h : k ≤ n) (hi : i < k) : (used v k).drop i = v[i] :: (used v k).drop (i + 1) := by
  have hlt : i < (used v k).length := by rwa [used_length h]
  have hget : (used v k)[i] = v[i] := by
    apply Option.some.inj
    rw [← List.getElem?_eq_getElem hlt, getElem?_used h, dif_pos hi]
  rw [List.drop_eq_getElem_cons hlt, hget]

theorem drop_used_length (h : k ≤ n) (hi : k ≤ i) : (used v k).drop i = [] :=
  List.drop_eq_nil_of_le (by rw [used_length h]; exact hi)

/-- In front of an element that is written, and behind it, the array is as before. -/
theorem take_used_set (h : i < n) : (used (v.set i x) k).take i = (used v k).take i := by
  rw [used_set h, List.take_set_of_le (Nat.le_refl i)]

theorem drop_used_set (h : i < n) : (used (v.set i x) k).drop (i + 1) = (used v k).drop (i + 1) := by
  rw [used_set h, List.drop_set_of_lt (Nat.lt_succ_self i)]

theorem take_succ_used_set (h : k ≤ n) (hi : i < k) :
    (used (v.set i x) k).take (i + 1) = (used v k).take i ++ [x] := by
  rw [List.take_add_one, take_used_set (by omega), used_set (by omega),
    List.getElem?_set_self (by rwa [used_length h])]
  rfl

theorem move_ok (v : Vector α n) (dst src len : Nat) (h : dst + len ≤ n) (h' : src + len ≤ n) :
    ∃ v', move v dst src len = .ok v' ∧ ∀ i, (hi : i < n) → v'[i] =
      if dst ≤ i ∧ i < dst + len then v[src + (i - dst)]?.getD v[i] else v[i] :=
  ⟨_, if_pos ⟨h, h'⟩, fun i hi => by rw [Vector.getElem_ofFn]; rfl⟩

theorem used_move (hk : k + 1 ≤ n) (h : i ≤ k) :
    ∃ v', move v i (i + 1) (k - i) = .ok v' ∧ used v' k = (used v (k + 1)).eraseIdx i := by
  obtain ⟨v', hv', hget⟩ := move_ok v i (i + 1) (k - i) (by omega) (by omega)
  refine ⟨v', hv', ?_⟩
  apply List.ext_getElem?
  intro j
  rw [getElem?_used (by omega), List.getElem?_eraseIdx]
  by_cases hj : j < k
  · rw [dif_pos hj, hget j (by omega)]
    by_cases hji : j < i
    · rw [if_neg (by omega), if_pos hji, getElem?_used hk, dif_pos (by omega)]
    · rw [if_pos (by omega), if_neg hji, getElem?_used hk, dif_pos (by omega)]
      have hidx : i + 1 + (j - i) = j + 1 := by omega
      rw [hidx, Vector.getElem?_eq_getElem (by omega), Option.getD_some]
  · rw [dif_neg hj]
    split
    · rw [getElem?_used hk, dif_neg (by omega)]
    · rw [getElem?_used hk, dif_neg (by omega)]

theorem readIndex_ok {l : List α} (h : i < l.length) : readIndex l i = .ok l[i] := by
  unfold readIndex
  rw [List.getElem?_eq_getElem h]

theorem copyIn_ok (v : Vector α n) (l : List α) (off len : Nat) (h : off + len ≤ l.length) (h' : len ≤ n) :
    ∃ v', copyIn v l off len = .ok v' ∧ used v' len = (l.drop off).take len := by
  refine ⟨_, ((if_neg (not_not_intro h)).trans (if_neg (not_not_intro h'))), ?_⟩
  apply List.ext_getElem?
  intro j
  rw [getElem?_used h']
  by_cases hj : j < len
  · have hoff : off + j < l.length := by omega
    rw [dif_pos hj, Vector.getElem_ofFn, if_pos hj, List.getElem?_take_of_lt hj, List.getElem?_drop,
      List.getElem?_eq_getElem hoff, Option.getD_some]
  · rw [dif_neg hj, List.getElem?_eq_none]
    rw [List.length_take]
    omega

/-! ## Loops -/

/-- What the body of a loop leaves behind: it goes on, or a `return` or `break` ended it. -/
inductive Flow (σ : Type)
  | next (s : σ)
  | stop (s : σ)

def Flow.state : Flow σ → σ
  | .next s => s
  | .stop s => s

def Flow.stopped : Flow σ → Bool
  | .next _ => false
  | .stop _ => true

/-- The loop from an index on, with the number of turns that are left. -/
def forEachFrom (v : Vector α n) (body : α → σ → Except BadIndex (Flow σ)) :
    Nat → Nat → σ → Except BadIndex (Flow σ)
  | 0, _, s => .ok (.next s)
  | k + 1, i, s => do
    let x ← get v i
    match ← body x s with
    | .next s' => forEachFrom v body k (i + 1) s'
    | .stop s' => .ok (.stop s')

/-- `for (i = 0; i < k; i++)`, with a body that works on the element `i`. -/
def forEach (v : Vector α n) (k : Nat) (body : α → σ → Except BadIndex (Flow σ)) (s : σ) :
    Except BadIndex (Flow σ) := forEachFrom v body k 0 s

/-- The loop over a list. -/
def overList (body : α → σ → Except BadIndex (Flow σ)) : List α → σ → Except BadIndex (Flow σ)
  | [], s => .ok (.next s)
  | x :: xs, s => do
    match ← body x s with
    | .next s' => overList body xs s'
    | .stop s' => .ok (.stop s')

theorem forEachFrom_eq {body : α → σ → Except BadIndex (Flow σ)} (k : Nat) {i : Nat} {s : σ}
    (h : i + k ≤ n) : forEachFrom v body k i s = overList body ((used v (i + k)).drop i) s := by
  induction k generalizing i s with
  | zero =>
    rw [drop_used_length h (Nat.le_refl i)]
    rfl
  | succ k ih =>
    have hhead : (used v (i + (k + 1))).drop i = v[i] :: (used v (i + 1 + k)).drop (i + 1) := by
      rw [drop_used h (by omega), Nat.add_right_comm i 1 k]
      rfl
    rw [hhead]
    show (get v i >>= _) = _
    rw [get_ok (by omega)]
    show (body _ s >>= _) = (body _ s >>= _)
    congr 1
    funext f
    cases f with
    | next s' => exact ih (by omega)
    | stop s' => rfl

theorem forEach_eq {body : α → σ → Except BadIndex (Flow σ)} {s : σ} (h : k ≤ n) :
    forEach v k body s = overList body (used v k) s := by
  show forEachFrom v body k 0 s = _
  rw [forEachFrom_eq k (by omega), Nat.zero_add, List.drop_zero]

/-- A loop that looks for an element and ends where it finds one, from an index on. -/
def anyFrom (v : Vector α n) (p : α → Bool) : Nat → Nat → Except BadIndex Bool
  | 0, _ => .ok false
  | k + 1, i => do
    let x ← get v i
    if p x then .ok true else anyFrom v p k (i + 1)

def anyOf (v : Vector α n) (k : Nat) (p : α → Bool) : Except BadIndex Bool := anyFrom v p k 0

theorem anyFrom_eq {p : α → Bool} (k : Nat) {i : Nat} (h : i + k ≤ n) :
    anyFrom v p k i = .ok (((used v (i + k)).drop i).any p) := by
  induction k generalizing i with
  | zero =>
    rw [drop_used_length h (Nat.le_refl i)]
    rfl
  | succ k ih =>
    rw [drop_used h (by omega), List.any_cons]
    show (get v i >>= _) = _
    rw [get_ok (by omega)]
    show (if p _ then _ else _) = _
    by_cases hp : p (v[i]) = true
    · rw [if_pos hp, hp, Bool.true_or]
    · rw [if_neg hp, ih (by omega), show i + 1 + k = i + (k + 1) by omega, eq_false_of_ne_true hp,
        Bool.false_or]

theorem anyOf_eq {p : α → Bool} (h : k ≤ n) : anyOf v k p = .ok ((used v k).any p) := by
  show anyFrom v p k 0 = _
  rw [anyFrom_eq k (by omega), Nat.zero_add, List.drop_zero]

/-- A loop that works on each element in its place, from an index on. -/
def updateFrom (f : α → Except BadIndex α) : Nat → Nat → Vector α n → Except BadIndex (Vector α n)
  | 0, _, v => .ok v
  | k + 1, i, v => do
    let x ← get v i
    let y ← f x
    updateFrom f k (i + 1) (← put v i y)

def updateEach (f : α → Except BadIndex α) (v : Vector α n) (k : Nat) : Except BadIndex (Vector α n) :=
  updateFrom f k 0 v

theorem updateFrom_eq {f : α → Except BadIndex α} {g : α → α} {m : Nat} (k : Nat) {i : Nat}
    {v : Vector α n} (hm : i + k = m) (h : m ≤ n)
    (hf : ∀ x ∈ (used v m).drop i, f x = .ok (g x)) :
    ∃ v', updateFrom f k i v = .ok v' ∧ used v' m = (used v m).take i ++ ((used v m).drop i).map g := by
  induction k generalizing i v with
  | zero =>
    refine ⟨v, rfl, ?_⟩
    rw [drop_used_length h (by omega), List.map_nil, List.append_nil,
      List.take_of_length_le (by rw [used_length h]; omega)]
  | succ k ih =>
    have hdrop : (used v m).drop i = v[i] :: (used v m).drop (i + 1) := drop_used h (by omega)
    have hfi : f (v[i]) = .ok (g (v[i])) := hf _ (by rw [hdrop]; exact .head _)
    -- behind the index the array is as before
    have hrest : (used (v.set i (g (v[i]))) m).drop (i + 1) = (used v m).drop (i + 1) :=
      drop_used_set (by omega)
    obtain ⟨v', hv', hused⟩ := ih (v := v.set i (g (v[i]))) (i := i + 1) (by omega)
      (fun x hx => hf x (by rw [hdrop]; rw [hrest] at hx; exact .tail _ hx))
    refine ⟨v', ?_, ?_⟩
    · show (get v i >>= _) = _
      rw [get_ok (by omega)]
      show (f _ >>= _) = _
      rw [hfi]
      show (put v i _ >>= _) = _
      rw [put_ok (by omega)]
      exact hv'
    · rw [hused, hrest, hdrop, List.map_cons, take_succ_used_set h (by omega), List.append_assoc]
      rfl

theorem updateEach_ok {f : α → Except BadIndex α} {P : α → α → Prop} (h : k ≤ n)
    (hf : ∀ x ∈ used v k, ∃ y, f x = .ok y ∧ P x y) :
    ∃ v' g, updateEach f v k = .ok v' ∧ used v' k = (used v k).map g ∧ ∀ x ∈ used v k, P x (g x) := by
  have hg : ∀ x ∈ used v k, f x = .ok ((f x).toOption.getD x) ∧ P x ((f x).toOption.getD x) := by
    intro x hx
    obtain ⟨y, hy, hP⟩ := hf x hx
    rw [hy]
    exact ⟨rfl, hP⟩
  obtain ⟨v', hv', hused⟩ := updateFrom_eq k (i := 0) (g := fun x => (f x).toOption.getD x) (Nat.zero_add k) h
    (by rw [List.drop_zero]; exact fun x hx => (hg x hx).1)
  exact ⟨v', _, hv', by simpa using hused, fun x hx => (hg x hx).2⟩

/-- `while (i < count)` over a list, where each element is worked on in its place and then stays, or goes
and those behind it are moved over it. -/
def filterFrom (f : α → Except BadIndex (α × Bool)) :
    Nat → Nat → Vector α n → Nat → Except BadIndex (Vector α n × Nat)
  | 0, _, v, count => .ok (v, count)
  | k + 1, i, v, count =>
    if i < count then do
      let (y, keep) ← f (← get v i)
      let v ← put v i y
      if keep then filterFrom f k (i + 1) v count
      else filterFrom f k i (← move v i (i + 1) (count - 1 - i)) (count - 1)
    else .ok (v, count)

/-- Each turn takes one of the elements that are left. -/
def filterEach (f : α → Except BadIndex (α × Bool)) (v : Vector α n) (count : Nat) :
    Except BadIndex (Vector α n × Nat) := filterFrom f count 0 v count

/-- What stays, as it was left. -/
def kept (g : α → α × Bool) (l : List α) : List α := ((l.map g).filter Prod.snd).map Prod.fst

theorem kept_cons_true {g : α → α × Bool} {l : List α} {y : α} (h : g x = (y, true)) :
    kept g (x :: l) = y :: kept g l := by
  unfold kept
  rw [List.map_cons, h, List.filter_cons_of_pos rfl, List.map_cons]

theorem kept_cons_false {g : α → α × Bool} {l : List α} {y : α} (h : g x = (y, false)) :
    kept g (x :: l) = kept g l := by
  unfold kept
  rw [List.map_cons, h, List.filter_cons_of_neg Bool.false_ne_true]

theorem kept_end {g : α → α × Bool} (h : k ≤ n) (hi : k ≤ i) :
    used v k = (used v k).take i ++ kept g ((used v k).drop i) := by
  rw [drop_used_length h hi, List.take_of_length_le (by rwa [used_length h])]
  exact (List.append_nil _).symm

theorem filterFrom_eq {f : α → Except BadIndex (α × Bool)} {g : α → α × Bool} (k : Nat) {i count : Nat}
    {v : Vector α n} (hcount : count ≤ n) (hi : i ≤ count) (hk : count - i ≤ k)
    (hf : ∀ x ∈ (used v count).drop i, f x = .ok (g x)) :
    ∃ v' count', filterFrom f k i v count = .ok (v', count') ∧ count' ≤ count ∧
      used v' count' = (used v count).take i ++ kept g ((used v count).drop i) := by
  induction k generalizing i count v with
  | zero => exact ⟨v, count, rfl, Nat.le_refl _, kept_end hcount (by omega)⟩
  | succ k ih =>
    unfold filterFrom
    by_cases hlt : i < count
    · have hdrop : (used v count).drop i = v[i] :: (used v count).drop (i + 1) := drop_used hcount hlt
      have hfi : f (v[i]) = .ok (g (v[i])) := hf _ (by rw [hdrop]; exact .head _)
      rw [if_pos hlt, get_ok (by omega)]
      show ∃ v' count', (f _ >>= _) = _ ∧ _
      rw [hfi]
      generalize hy : g (v[i]) = r at *
      obtain ⟨y, keep⟩ := r
      show ∃ v' count', (put v i y >>= _) = _ ∧ _
      rw [put_ok (by omega)]
      have hrest : (used (v.set i y) count).drop (i + 1) = (used v count).drop (i + 1) :=
        drop_used_set (by omega)
      cases keep with
      | true =>
        obtain ⟨v', count', hrun, hle, hused⟩ := ih (v := v.set i y) hcount (i := i + 1) (by omega) (by omega)
          fun x hx => hf x (by rw [hdrop]; rw [hrest] at hx; exact .tail _ hx)
        refine ⟨v', count', hrun, hle, ?_⟩
        rw [hused, hrest, hdrop, kept_cons_true hy, take_succ_used_set hcount hlt, List.append_assoc]
        rfl
      | false =>
        obtain ⟨v₂, hmove, hused₂⟩ := used_move (v := v.set i y) (i := i) (k := count - 1) (by omega) (by omega)
        have hgone : used v₂ (count - 1) = (used v count).take i ++ (used v count).drop (i + 1) := by
          rw [hused₂, show count - 1 + 1 = count by omega, List.eraseIdx_eq_take_drop_succ,
            take_used_set (by omega), hrest]
        have hleft : ((used v count).take i).length = i := by
          rw [List.length_take, used_length hcount]
          omega
        show ∃ v' count', (move (v.set i y) i (i + 1) (count - 1 - i) >>= _) = _ ∧ _
        rw [hmove]
        obtain ⟨v', count', hrun, hle, hused⟩ := ih (v := v₂) (i := i) (show count - 1 ≤ n by omega)
          (by omega) (by omega) fun x hx => hf x (by
            rw [hgone, List.drop_append_of_le_length (by omega), List.drop_of_length_le (by omega)] at hx
            rw [hdrop]
            exact .tail _ hx)
        refine ⟨v', count', hrun, by omega, ?_⟩
        rw [hused, hgone, List.take_append_of_le_length (by omega), List.take_of_length_le (by omega),
          List.drop_append_of_le_length (by omega), List.drop_of_length_le (by omega), hdrop,
          kept_cons_false hy, List.nil_append]
    · rw [if_neg hlt]
      exact ⟨v, count, rfl, Nat.le_refl _, kept_end hcount (by omega)⟩

/-- Every element in use is looked at once, and what stays keeps its order. -/
theorem filterEach_ok {f : α → Except BadIndex (α × Bool)} {P : α → α × Bool → Prop} (h : k ≤ n)
    (hf : ∀ x ∈ used v k, ∃ r, f x = .ok r ∧ P x r) :
    ∃ v' count' g, filterEach f v k = .ok (v', count') ∧ count' ≤ k ∧ used v' count' = kept g (used v k) ∧
      ∀ x ∈ used v k, P x (g x) := by
  have hg : ∀ x ∈ used v k,
      f x = .ok ((f x).toOption.getD (x, true)) ∧ P x ((f x).toOption.getD (x, true)) := by
    intro x hx
    obtain ⟨r, hr, hP⟩ := hf x hx
    rw [hr]
    exact ⟨rfl, hP⟩
  obtain ⟨v', count', hrun, hle, hused⟩ := filterFrom_eq k (i := 0)
    (g := fun x => (f x).toOption.getD (x, true)) h (Nat.zero_le k) (by omega)
    (by rw [List.drop_zero]; exact fun x hx => (hg x hx).1)
  exact ⟨v', count', _, hrun, hle, by simpa using hused, fun x hx => (hg x hx).2⟩

/-! ## Lists of limited length -/

/-- The loop or body wrote `items` behind the list `view s`, up to a limit that ended it. -/
def Fills (inv : σ → Prop) (view : σ → List β) (limit : Nat) (items : List β) (s : σ)
    (r : Except BadIndex (Flow σ)) : Prop :=
  ∃ f, r = .ok f ∧ inv f.state ∧ view f.state = (view s ++ items).take limit ∧
    (f.stopped = true ↔ limit ≤ (view s ++ items).length)

variable {inv : σ → Prop} {view : σ → List β} {limit : Nat} {s : σ}

theorem fills_nil {s' : σ} (hinv : inv s') (hview : view s' = view s) (hs : (view s).length < limit) :
    Fills inv view limit [] s (.ok (.next s')) := by
  refine ⟨.next s', rfl, hinv, ?_, ?_⟩
  · rw [List.append_nil, List.take_of_length_le (by omega)]
    exact hview
  · rw [List.append_nil]
    exact ⟨fun h => (Bool.false_ne_true h).elim, fun h => by omega⟩

theorem fills_one {y : β} {s' : σ} {c : Prop} [Decidable c] (hinv : inv s') (hview : view s' = view s ++ [y])
    (hs : (view s).length < limit) (hc : c ↔ (view s').length = limit) :
    Fills inv view limit [y] s (if c then .ok (.stop s') else .ok (.next s')) := by
  have hlen : (view s').length = (view s).length + 1 := by
    rw [hview, List.length_append, List.length_singleton]
  have htake : view s' = (view s ++ [y]).take limit := by
    rw [← hview, List.take_of_length_le (by omega)]
  by_cases h : c
  · rw [if_pos h]
    refine ⟨.stop s', rfl, hinv, htake, ?_⟩
    rw [← hview, hc.1 h]
    exact ⟨fun _ => Nat.le_refl _, fun _ => rfl⟩
  · rw [if_neg h]
    refine ⟨.next s', rfl, hinv, htake, ?_⟩
    have hne : (view s').length ≠ limit := fun heq => h (hc.2 heq)
    rw [← hview]
    exact ⟨fun h => (Bool.false_ne_true h).elim, fun h => by omega⟩

theorem fills_overList {body : α → σ → Except BadIndex (Flow σ)} {items : α → List β} {xs : List α}
    (hbody : ∀ x ∈ xs, ∀ s, inv s → (view s).length < limit → Fills inv view limit (items x) s (body x s))
    (hinv : inv s) (hs : (view s).length < limit) :
    Fills inv view limit (xs.flatMap items) s (overList body xs s) := by
  induction xs generalizing s with
  | nil => exact fills_nil hinv rfl hs
  | cons x xs ih =>
    obtain ⟨f, hf, hinv', hview, hstop⟩ := hbody x List.mem_cons_self s hinv hs
    rw [List.flatMap_cons, overList]
    show Fills inv view limit _ s (body x s >>= _)
    rw [hf]
    cases f with
    | stop s' =>
      -- the list is full, and stays as it is
      have hfull : limit ≤ (view s ++ items x).length := hstop.1 rfl
      refine ⟨.stop s', rfl, hinv', ?_, ?_⟩
      · rw [← List.append_assoc, List.take_append_of_le_length hfull]
        exact hview
      · rw [← List.append_assoc, List.length_append]
        exact ⟨fun _ => by omega, fun _ => rfl⟩
    | next s' =>
      have hroom : ¬ limit ≤ (view s ++ items x).length := fun h => by cases hstop.2 h
      have hview' : view s' = view s ++ items x := by
        rw [← List.take_of_length_le (i := limit) (l := view s ++ items x) (by omega)]
        exact hview
      obtain ⟨f', hf', hinv'', hview'', hstop'⟩ := ih
        (fun y hy => hbody y (List.mem_cons_of_mem _ hy)) hinv' (by rw [Flow.state, hview']; omega)
      rw [Flow.state, hview', List.append_assoc] at hview'' hstop'
      exact ⟨f', hf', hinv'', hview'', hstop'⟩

theorem fills_forEach {body : α → σ → Except BadIndex (Flow σ)} {items : α → List β} (hk : k ≤ n)
    (hbody : ∀ x ∈ used v k, ∀ s, inv s → (view s).length < limit →
      Fills inv view limit (items x) s (body x s))
    (hinv : inv s) (hs : (view s).length < limit) :
    Fills inv view limit ((used v k).flatMap items) s (forEach v k body s) := by
  rw [forEach_eq hk]
  exact fills_overList hbody hinv hs

/-- Adds what has a new key, and ends where there is no more room. -/
def addUpTo {κ : Type} [DecidableEq κ] (limit : Nat) (key : β → κ) : List β → List β → List β
  | acc, [] => acc
  | acc, x :: xs =>
    if key x ∈ acc.map key then addUpTo limit key acc xs
    else if acc.length = limit then acc
    else addUpTo limit key (acc ++ [x]) xs

/-- What one turn does that adds an element with a new key. -/
def Adds {κ : Type} [DecidableEq κ] (inv : σ → Prop) (view : σ → List β) (limit : Nat) (key : β → κ) (y : β)
    (s : σ) (r : Except BadIndex (Flow σ)) : Prop :=
  ∃ f, r = .ok f ∧ inv f.state ∧
    if key y ∈ (view s).map key then f.stopped = false ∧ view f.state = view s
    else if (view s).length = limit then f.stopped = true ∧ view f.state = view s
    else f.stopped = false ∧ view f.state = view s ++ [y]

section
variable {κ : Type} [DecidableEq κ] {key : β → κ} {y : β}

theorem adds_old (hinv : inv s) (hmem : key y ∈ (view s).map key) :
    Adds inv view limit key y s (.ok (.next s)) :=
  ⟨.next s, rfl, hinv, by rw [if_pos hmem]; exact ⟨rfl, rfl⟩⟩

theorem adds_full (hinv : inv s) (hmem : key y ∉ (view s).map key) (hfull : (view s).length = limit) :
    Adds inv view limit key y s (.ok (.stop s)) :=
  ⟨.stop s, rfl, hinv, by rw [if_neg hmem, if_pos hfull]; exact ⟨rfl, rfl⟩⟩

theorem adds_new {s' : σ} (hinv : inv s') (hmem : key y ∉ (view s).map key) (hroom : (view s).length ≠ limit)
    (hview : view s' = view s ++ [y]) : Adds inv view limit key y s (.ok (.next s')) :=
  ⟨.next s', rfl, hinv, by rw [if_neg hmem, if_neg hroom]; exact ⟨rfl, hview⟩⟩

/-- The key is looked for first, then room, and then the element is written behind the last one. -/
theorem adds_ite {found : Bool} {full : Prop} [Decidable full] {new : Except BadIndex (Flow σ)} (hinv : inv s)
    (hfound : found = true ↔ key y ∈ (view s).map key) (hfull : full ↔ (view s).length = limit)
    (hnew : ¬ full → ∃ s', new = .ok (.next s') ∧ inv s' ∧ view s' = view s ++ [y]) :
    Adds inv view limit key y s (if found then .ok (.next s) else if full then .ok (.stop s) else new) := by
  by_cases hmem : key y ∈ (view s).map key
  · rw [if_pos (hfound.2 hmem)]
    exact adds_old hinv hmem
  rw [if_neg (mt hfound.1 hmem)]
  by_cases hroom : full
  · rw [if_pos hroom]
    exact adds_full hinv hmem (hfull.1 hroom)
  · obtain ⟨s', hs', hinv', hview⟩ := hnew hroom
    rw [if_neg hroom, hs']
    exact adds_new hinv' hmem (mt hfull.2 hroom) hview

end

theorem adds_overList {κ : Type} [DecidableEq κ] {key : β → κ} {body : α → σ → Except BadIndex (Flow σ)}
    (item : α → β) {xs : List α}
    (hbody : ∀ x ∈ xs, ∀ s, inv s → Adds inv view limit key (item x) s (body x s)) (hinv : inv s) :
    ∃ f, overList body xs s = .ok f ∧ inv f.state ∧
      view f.state = addUpTo limit key (view s) (xs.map item) := by
  induction xs generalizing s with
  | nil => exact ⟨.next s, rfl, hinv, rfl⟩
  | cons x xs ih =>
    obtain ⟨f, hf, hinv', hview⟩ := hbody x List.mem_cons_self s hinv
    have hrest := fun s hs => ih (s := s) (fun y hy => hbody y (List.mem_cons_of_mem _ hy)) hs
    rw [overList, List.map_cons, addUpTo]
    show ∃ f, (body x s >>= _) = _ ∧ _
    rw [hf]
    by_cases hmem : key (item x) ∈ (view s).map key
    · rw [if_pos hmem] at hview ⊢
      cases f with
      | stop s' => cases hview.1
      | next s' =>
        rw [← hview.2]
        exact hrest s' hinv'
    rw [if_neg hmem] at hview ⊢
    by_cases hfull : (view s).length = limit
    · rw [if_pos hfull] at hview ⊢
      cases f with
      | stop s' => exact ⟨.stop s', rfl, hinv', hview.2⟩
      | next s' => cases hview.1
    · rw [if_neg hfull] at hview ⊢
      cases f with
      | stop s' => cases hview.1
      | next s' =>
        rw [← hview.2]
        exact hrest s' hinv'

end FixedArray
