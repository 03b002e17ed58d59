import CodeHarbor.Lib.NumberText
import CodeHarbor.Lib.Paging
set_option autoImplicit false

namespace CodeHarbor.Gateway.Threads
open Lib Lib.Js

/-! The threads of the user, page by page. -/

abbrev Double : Type := { x : Rat // IsDouble x }

instance : Zero Double := ⟨0,by simpa using isDouble_natCast (n := 0) (by norm_num)⟩

inductive Number where
  | nan
  | infinity (negative : Bool)
  | finite (x : Rat)

/-- Threads no two of which have one id. -/
structure ThreadSet (α : Type) (id : α → JsText) where
  threads : List α
  distinct : (threads.map id).Nodup

/-- What a page shows of a thread; the fields that paging does not read are left out. -/
structure ThreadSummary where
  id : JsText
  updatedAtMs : Double
  deriving DecidableEq

/-- A row of the state database. The columns of the time are one number, or NULL when all are. -/
structure ThreadRow where
  id : JsText
  updated_at_ms : Option Double
  archived : Option Rat
  deriving DecidableEq

structure ThreadPage where
  data : List ThreadSummary
  nextCursor : Option JsText

/-- How texts are compared: `left.localeCompare(right) <= 0`, or the collation of a column. -/
structure Collation where
  le : JsText → JsText → Bool
  total : ∀ a b, le a b = true ∨ le b a = true
  trans : ∀ a b c, le a b = true → le b c = true → le a c = true

/-- `Math.min(Math.max(limit || 40, 1), 100)`. -/
def safeLimit : Number → Rat
  | .nan => 40
  | .infinity negative => if negative then 1 else 100
  | .finite x => if x = 0 then 40 else min (max x 1) 100

/-- `Number(text)`; the texts that are no decimal literal are left to the language. -/
def toNumber (other : JsText → Number) (text : JsText) : Number :=
  match readLiteral text with
  | none => other text
  | some l =>
    if l.complete then
      match l.value with
      | .num x => .finite x
      | .infinity negative => .infinity negative
      | _ => .nan
    else other text

/-- `!cursorMs || thread.updatedAtMs < cursorMs`, where NaN has become zero. -/
def Number.lets (updatedAtMs : Double) : Number → Bool
  | .nan => true
  | .infinity negative => !negative
  | .finite cursorMs => cursorMs = 0 || updatedAtMs.1 < cursorMs

section Order
variable {α : Type} (key : α → Option Double) (id : α → JsText) (collation : Collation)

/-- By falling times, none last, then by falling ids. -/
def newest (left right : α) : Bool :=
  match key left, key right with
  | some s, some t => t < s || (t = s && collation.le (id right) (id left))
  | some _, none => true
  | none, some _ => false
  | none, none => collation.le (id right) (id left)

def sortNewest (xs : List α) : List α := xs.insertionSort fun left right => newest key id collation left right = true

end Order

/-- `String(data.at(-1)?.updatedAtMs ?? "")`. -/
def lastTime (data : List ThreadSummary) : JsText :=
  match data.getLast? with
  | none => []
  | some thread => numberText thread.updatedAtMs

def slice {α : Type} (rows : List α) (x : Rat) : List α := rows.take ⌊x⌋.toNat

def timeOf (thread : ThreadSummary) : Option Double := some thread.updatedAtMs

/-- `listThreadsFromIndex`, of an index with these threads. -/
def listThreadsFromIndex (other : JsText → Number) (collation : Collation) (threads : List ThreadSummary)
    (limit : Number) (cursor : Option JsText) : ThreadPage :=
  let safeLimit := safeLimit limit
  let rows := sortNewest timeOf ThreadSummary.id collation
    (threads.filter fun thread =>
      match cursor with
      | none => true
      | some text => text = [] || (toNumber other text).lets thread.updatedAtMs)
  let page := slice rows (addOne safeLimit)
  let data := slice page safeLimit
  { data := data, nextCursor := if safeLimit < page.length then some (lastTime data) else none }

def mapThreadRow (row : ThreadRow) : ThreadSummary := { id := row.id, updatedAtMs := row.updated_at_ms.getD 0 }

/-- `and (updated_at_ms) < ${cursorMs}`, of a cursor that is a finite number and not zero. -/
def cursorClause (other : JsText → Number) (cursor : Option JsText) (row : ThreadRow) : Bool :=
  match cursor with
  | none => true
  | some text =>
    if text = [] then true
    else
      match toNumber other text with
      | .finite cursorMs => cursorMs = 0 || row.updated_at_ms.any fun t => t.1 < cursorMs
      | _ => true

def unarchived (rows : List ThreadRow) : List ThreadRow := rows.filter fun row => row.archived.getD 0 = 0

/-- `listThreads`, of a database with these rows; none when the query fails, as it does with a limit
that is no integer. -/
def listThreads (other : JsText → Number) (collation : Collation) (rows : List ThreadRow) (limit : Number)
    (cursor : Option JsText) : Option ThreadPage :=
  let safeLimit := safeLimit limit
  if (addOne safeLimit).isInt = false then none
  else
    let rows := slice (sortNewest ThreadRow.updated_at_ms ThreadRow.id collation
      ((unarchived rows).filter (cursorClause other cursor))) (addOne safeLimit)
    let page := slice rows safeLimit
    let data := page.map mapThreadRow
    some { data := data, nextCursor := if safeLimit < rows.length then some (lastTime data) else none }

/-- Where the gateway finds threads: the index, the state database, and the app server. -/
structure Sources where
  index : Option (List ThreadSummary)
  database : Option (List ThreadRow)
  appServer : Number → Option JsText → Option ThreadPage

def listThreadsPortable (other : JsText → Number) (collation : Collation) (sources : Sources) (limit : Number)
    (cursor : Option JsText) : Option ThreadPage :=
  match sources.index with
  | some threads => some (listThreadsFromIndex other collation threads limit cursor)
  | none =>
    match sources.database with
    | some rows => listThreads other collation rows limit cursor
    | none => sources.appServer limit cursor

/-- The pages that are left of the ten. -/
def findFrom (list : Option JsText → Option ThreadPage) (threadId : JsText) : Nat → Option JsText →
    Option ThreadSummary
  | 0, _ => none
  | pages+1, cursor =>
    match list cursor with
    | none => none
    | some response =>
      match response.data.find? fun thread => thread.id = threadId with
      | some found => some found
      | none =>
        match response.nextCursor with
        | none => none
        | some text => if text = [] then none else findFrom list threadId pages (some text)

def findThreadSummary (other : JsText → Number) (collation : Collation) (sources : Sources) (threadId : JsText) :
    Option ThreadSummary :=
  findFrom (listThreadsPortable other collation sources (.finite 100)) threadId 10 none

def followCursors (list : Option JsText → Option ThreadPage) : Nat → Option JsText → Option (List ThreadSummary)
  | 0, _ => none
  | fuel+1, cursor =>
    match list cursor with
    | none => none
    | some response =>
      match response.nextCursor with
      | none => some response.data
      | some text => (followCursors list fuel (some text)).map (response.data ++ ·)

/-- Following the cursors ends, with every thread once and in the declared order. -/
def Enumerates {α : Type} (list : Option JsText → Option ThreadPage) (before : α → α → Bool)
    (summary : α → ThreadSummary) (threads : List α) : Prop :=
  ∃ (fuel : Nat) (out : List α), followCursors list fuel none = some (out.map summary) ∧ out.Perm threads ∧
    out.Pairwise fun x y => before x y = true

def Finds {α : Type} (find : JsText → Option ThreadSummary) (summary : α → ThreadSummary) (ordered : List α) : Prop :=
  ∀ x ∈ ordered.take (10*100), find (summary x).id = some (summary x)

/-- The last row of a page and the first one of the next. -/
def Boundary {α : Type} (ordered : List α) (n k : Nat) (x y : α) : Prop :=
  0 < k ∧ ordered[k*n-1]? = some x ∧ ordered[k*n]? = some y

/-- The time before a boundary is a cursor, and the one behind it is smaller. -/
def Falls {α : Type} (key : α → Option Double) (x y : α) : Prop :=
  ∃ c t, key x = some c ∧ c ≠ 0 ∧ key y = some t ∧ t < c

section Sorting
variable {α : Type} {key : α → Option Double} {id : α → JsText} {collation : Collation}

theorem newest_total (x y : α) :
    newest key id collation x y = true ∨ newest key id collation y x = true := by
  cases hx : key x <;> cases hy : key y
  · simpa [newest,hx,hy] using (collation.total (id y) (id x))
  · simp [newest,hx,hy]
  · simp [newest,hx,hy]
  · rename_i s t
    have ties := collation.total (id y) (id x)
    simp only [newest,hx,hy,Bool.or_eq_true,Bool.and_eq_true,decide_eq_true_eq]
    rcases lt_trichotomy s t with less | rfl | less
    · exact .inr (.inl less)
    · rcases ties with tie | tie
      · exact .inl (.inr ⟨rfl,tie⟩)
      · exact .inr (.inr ⟨rfl,tie⟩)
    · exact .inl (.inl less)

theorem newest_trans {x y z : α} (first : newest key id collation x y = true)
    (second : newest key id collation y z = true) : newest key id collation x z = true := by
  have ties := collation.trans (id z) (id y) (id x)
  cases hx : key x <;> cases hy : key y <;> cases hz : key z <;> simp_all [newest]
  rename_i s t u
  rcases first with less | ⟨rfl,tie⟩
  · rcases second with less' | ⟨rfl,-⟩
    · exact .inl (lt_trans less' less)
    · exact .inl less
  · rcases second with less' | ⟨rfl,tie'⟩
    · exact .inl less'
    · exact .inr ⟨rfl,ties tie' tie⟩

instance : Std.Total fun x y => newest key id collation x y = true := ⟨newest_total⟩

instance : IsTrans α fun x y => newest key id collation x y = true := ⟨fun _ _ _ => newest_trans⟩

theorem perm_sortNewest (key : α → Option Double) (id : α → JsText) (collation : Collation) (xs : List α) :
    (sortNewest key id collation xs).Perm xs := List.perm_insertionSort _ _

theorem pairwise_sortNewest (key : α → Option Double) (id : α → JsText) (collation : Collation) (xs : List α) :
    (sortNewest key id collation xs).Pairwise fun x y => newest key id collation x y = true :=
  List.pairwise_insertionSort _ _

theorem descending_of_pairwise {xs : List α} (h : xs.Pairwise fun x y => newest key id collation x y = true) :
    Paging.Descending key xs := by
  refine h.imp fun {x y} le t own => ?_
  cases hx : key x with
  | none => simp [newest,hx,own] at le
  | some s =>
    simp only [newest,hx,own,Bool.or_eq_true,Bool.and_eq_true,decide_eq_true_eq] at le
    refine ⟨s,rfl,?_⟩
    rcases le with less | ⟨same,-⟩
    · exact le_of_lt less
    · exact le_of_eq same

theorem sortNewest_cons (x : α) (xs : List α) : sortNewest key id collation (x :: xs) =
    (sortNewest key id collation xs).orderedInsert (fun x y => newest key id collation x y = true) x := rfl

theorem filter_sortNewest (p : α → Bool) (xs : List α) :
    (sortNewest key id collation xs).filter p = sortNewest key id collation (xs.filter p) := by
  have insert : ∀ (x : α) (ys : List α), ys.Pairwise (fun x y => newest key id collation x y = true) →
      (ys.orderedInsert (fun x y => newest key id collation x y = true) x).filter p =
        if p x then (ys.filter p).orderedInsert (fun x y => newest key id collation x y = true) x
        else ys.filter p := by
    intro x ys
    induction ys with
    | nil => intro _; cases h : p x <;> simp [h]
    | cons y ys ih =>
      intro sorted
      obtain ⟨least,sorted⟩ := List.pairwise_cons.1 sorted
      rw [List.orderedInsert_cons]
      by_cases le : newest key id collation x y = true
      · rw [if_pos le,List.filter_cons]
        split_ifs with kept
        · cases rest : (y :: ys).filter p with
          | nil => rfl
          | cons z zs =>
            have mem : z ∈ y :: ys := (List.mem_filter.1 (rest ▸ List.mem_cons_self : z ∈ (y :: ys).filter p)).1
            have below : newest key id collation x z = true := by
              rcases List.mem_cons.1 mem with rfl | later
              · exact le
              · exact newest_trans le (least z later)
            rw [List.orderedInsert_cons,if_pos below]
        · rfl
      · rw [if_neg le,List.filter_cons,List.filter_cons,ih sorted]
        split_ifs
        · rw [List.orderedInsert_cons,if_neg le]
        · rfl
        · rfl
        · rfl
  induction xs with
  | nil => rfl
  | cons x xs ih =>
    rw [sortNewest_cons,insert x _ (pairwise_sortNewest key id collation xs),List.filter_cons,ih]
    split_ifs <;> rfl

end Sorting

section Limits

def pageSize (limit : Number) : Nat := ⌊safeLimit limit⌋.toNat

theorem safeLimit_bounds (limit : Number) : 1 ≤ safeLimit limit ∧ safeLimit limit ≤ 100 := by
  cases limit with
  | nan => norm_num [safeLimit]
  | infinity negative => cases negative <;> norm_num [safeLimit]
  | finite x =>
    rw [safeLimit]
    split_ifs
    · norm_num
    · exact ⟨le_min (le_max_right x 1) (by norm_num),min_le_right _ _⟩

theorem pageSize_pos (limit : Number) : 0 < pageSize limit := by
  have low : (1 : Int) ≤ ⌊safeLimit limit⌋ := Int.le_floor.2 (by exact_mod_cast (safeLimit_bounds limit).1)
  rw [pageSize]
  omega

theorem pageSize_eq (limit : Number) : (pageSize limit : Int) = ⌊safeLimit limit⌋ :=
  Int.toNat_of_nonneg (Int.floor_nonneg.2 (le_trans zero_le_one (safeLimit_bounds limit).1))

theorem pageSize_lt (limit : Number) : pageSize limit < ⌊addOne (safeLimit limit)⌋.toNat := by
  obtain ⟨low,high⟩ := safeLimit_bounds limit
  have small : |safeLimit limit+1| < 2^53 := by
    rw [abs_of_nonneg (by linarith)]
    linarith
  obtain ⟨m,multiple⟩ := int_multiple small (⌊safeLimit limit⌋+1)
  have below : ((⌊safeLimit limit⌋+1 : Int) : Rat) ≤ safeLimit limit+1 := by
    push_cast
    linarith [Int.floor_le (safeLimit limit)]
  have rounded : ((⌊safeLimit limit⌋+1 : Int) : Rat) ≤ addOne (safeLimit limit) := by
    rw [multiple] at below ⊢
    exact le_round53 below
  have more := Int.le_floor.2 rounded
  have same := pageSize_eq limit
  omega

theorem safeLimit_lt_iff (limit : Number) (k : Nat) : safeLimit limit < k ↔ pageSize limit < k := by
  have same := pageSize_eq limit
  have := Int.floor_lt (a := safeLimit limit) (z := (k : Int))
  rw [Int.cast_natCast] at this
  rw [← this]
  omega

theorem slice_page {α : Type} (rows : List α) (limit : Number) :
    slice (slice rows (addOne (safeLimit limit))) (safeLimit limit) = rows.take (pageSize limit) := by
  have more := pageSize_lt limit
  rw [slice,slice,List.take_take,← pageSize,Nat.min_eq_left (by omega)]

theorem more_iff {α : Type} (rows : List α) (limit : Number) :
    safeLimit limit < (slice rows (addOne (safeLimit limit))).length ↔ pageSize limit < rows.length := by
  have more := pageSize_lt limit
  rw [safeLimit_lt_iff,slice,List.length_take]
  omega

end Limits

section Cursors

theorem numberText_ne_nil (t : Double) : numberText t.1 ≠ [] := by
  obtain ⟨l,read,-⟩ := readLiteral_numberText t.2
  intro none
  rw [none] at read
  cases read

theorem toNumber_numberText (other : JsText → Number) (t : Double) : toNumber other (numberText t.1) = .finite t.1 := by
  obtain ⟨l,read,complete,value⟩ := readLiteral_numberText t.2
  rw [toNumber,read]
  simp [complete,value]

def cursorText (c : Option Double) : Option JsText := c.map fun t => numberText t.1

/-- A listing goes through the rows of a list by pages of `n`. -/
def Lists {α : Type} (list : Option JsText → Option ThreadPage) (key : α → Option Double) (all : List α) (n : Nat)
    (summary : α → ThreadSummary) : Prop :=
  ∀ c, list (cursorText c) =
    some { data := (Paging.page key all n c).map summary, nextCursor := cursorText (Paging.next key all n c) }

variable {α : Type} {list : Option JsText → Option ThreadPage} {key : α → Option Double} {all : List α} {n : Nat}
  {summary : α → ThreadSummary}

theorem Lists.followCursors_eq (h : Lists list key all n summary) (fuel : Nat) (c : Option Double) :
    followCursors list fuel (cursorText c) = (Paging.follow key all n fuel c).map (List.map summary) := by
  induction fuel generalizing c with
  | zero => rfl
  | succ fuel ih =>
    rw [followCursors,h c,Paging.follow]
    cases step : Paging.next key all n c with
    | none => rfl
    | some t =>
      have rest := ih (some t)
      simp only [cursorText,Option.map_some] at rest ⊢
      rw [rest,Option.map_map,Option.map_map]
      congr 1
      funext rows
      simp

theorem Lists.findFrom_eq (h : Lists list key all n summary) (threadId : JsText) (pages : Nat) (c : Option Double) :
    findFrom list threadId pages (cursorText c) =
      ((Paging.returned key all n pages c).map summary).find? fun thread => thread.id = threadId := by
  induction pages generalizing c with
  | zero => rfl
  | succ pages ih =>
    rw [findFrom,h c,Paging.returned,List.map_append,List.find?_append]
    dsimp only
    cases (List.map summary (Paging.page key all n c)).find? fun thread => thread.id = threadId with
    | some found => rfl
    | none =>
      cases step : Paging.next key all n c with
      | none => rfl
      | some t =>
        have rest := ih (some t)
        simp only [cursorText,Option.map_some] at rest ⊢
        rw [if_neg (numberText_ne_nil t),rest]
        rfl

end Cursors

section Listings
variable (other : JsText → Number) (collation : Collation)

def ordered (threads : List ThreadSummary) : List ThreadSummary :=
  sortNewest timeOf ThreadSummary.id collation threads

def orderedRows (rows : List ThreadRow) : List ThreadRow :=
  sortNewest ThreadRow.updated_at_ms ThreadRow.id collation (unarchived rows)

theorem nextCursor_eq {α : Type} (key : α → Option Double) (summary : α → ThreadSummary)
    (same : ∀ x, (summary x).updatedAtMs = Paging.cursorOf key x) {n : Nat} (hn : 0 < n) (rows : List α) :
    (if n < rows.length then some (lastTime ((rows.take n).map summary)) else none) =
      cursorText (if n < rows.length then (rows.take n).getLast?.map (Paging.cursorOf key) else none) := by
  split_ifs with more
  · cases last : (rows.take n).getLast? with
    | none =>
      rw [List.getLast?_eq_none_iff,List.take_eq_nil_iff] at last
      rcases last with zero | nothing
      · omega
      · rw [nothing,List.length_nil] at more
        omega
    | some x =>
      rw [lastTime,List.getLast?_map,last]
      simp [cursorText,same]
  · rfl

theorem admits_cursor (t u : Double) :
    (decide (numberText t.1 = []) || (toNumber other (numberText t.1)).lets u) =
      Paging.admits (fun u : Double => some u) t u := by
  have zero : (t.1 = 0) = (t = 0) := propext (show t = 0 ↔ t.1 = 0 from Subtype.ext_iff).symm
  rw [Bool.eq_iff_iff]
  simp [numberText_ne_nil t,toNumber_numberText,Number.lets,Paging.admits,zero]

theorem lists_index (threads : List ThreadSummary) (limit : Number) :
    Lists (fun cursor => some (listThreadsFromIndex other collation threads limit cursor))
      timeOf (ordered collation threads) (pageSize limit) id := by
  intro c
  have rows : sortNewest timeOf ThreadSummary.id collation
      (threads.filter fun thread =>
        match cursorText c with
        | none => true
        | some text => text = [] || (toNumber other text).lets thread.updatedAtMs) =
      Paging.rows timeOf (ordered collation threads) c := by
    cases c with
    | none => simp [cursorText,Paging.rows,ordered]
    | some t =>
      rw [Paging.rows,ordered,filter_sortNewest]
      congr 1
      apply List.filter_congr
      intro thread _
      exact admits_cursor other t thread.updatedAtMs
  simp only [listThreadsFromIndex,rows,slice_page,more_iff]
  have next := nextCursor_eq timeOf id
    (fun thread => rfl) (pageSize_pos limit)
    (Paging.rows timeOf (ordered collation threads) c)
  rw [List.map_id] at next
  rw [next,List.map_id]
  rfl

theorem lists_database (rows : List ThreadRow) (limit : Number) (integral : (addOne (safeLimit limit)).isInt = true) :
    Lists (listThreads other collation rows limit) ThreadRow.updated_at_ms (orderedRows collation rows)
      (pageSize limit) mapThreadRow := by
  intro c
  have selected : sortNewest ThreadRow.updated_at_ms ThreadRow.id collation
      ((unarchived rows).filter (cursorClause other (cursorText c))) =
      Paging.rows ThreadRow.updated_at_ms (orderedRows collation rows) c := by
    cases c with
    | none => 
      have all : cursorClause other (cursorText none) = fun _ => true := rfl
      rw [all,List.filter_true]
      rfl
    | some t =>
      rw [Paging.rows,orderedRows,filter_sortNewest]
      congr 1
      apply List.filter_congr
      intro row _
      have zero : (t.1 = 0) = (t = 0) := propext (show t = 0 ↔ t.1 = 0 from Subtype.ext_iff).symm
      rw [Bool.eq_iff_iff]
      simp [cursorText,cursorClause,numberText_ne_nil t,toNumber_numberText,Paging.admits,zero]
  rw [listThreads]
  simp only [integral,selected,slice_page,more_iff]
  rw [nextCursor_eq ThreadRow.updated_at_ms mapThreadRow (fun row => rfl) (pageSize_pos limit)]
  rfl

end Listings

section Exactness
variable {α : Type} {key : α → Option Double} {id : α → JsText} {collation : Collation} {summary : α → ThreadSummary}
  {list : Option JsText → Option ThreadPage} {n : Nat}

theorem clear_iff_boundary {all : List α} (sorted : Paging.Descending key all) (hn : 0 < n) {m k : Nat} (hk : 0 < k)
    (inside : k*n < m) (more : k*n < all.length) :
    Paging.Clear key all n m k ↔
      (∀ x y, Boundary all n k x y → Falls key x y) ∧ ∀ z ∈ all.take m, (key z).isSome = true := by
  have pos : 0 < k*n := Nat.mul_pos hk hn
  have last : (all.take (k*n)).getLast? = some all[k*n-1] := by
    rw [List.getLast?_take,if_neg (by omega),List.getElem?_eq_getElem (by omega)]
    rfl
  rw [Paging.clear_iff sorted inside more,last,List.getElem?_eq_getElem more]
  constructor
  · rintro ⟨c,t,own,nonzero,next,less,keyed⟩
    refine ⟨fun x y boundary => ?_,keyed⟩
    obtain ⟨-,first,second⟩ := boundary
    rw [List.getElem?_eq_getElem (by omega)] at first
    rw [List.getElem?_eq_getElem more] at second
    cases first
    cases second
    exact ⟨c,t,own,nonzero,next,less⟩
  · rintro ⟨falls,keyed⟩
    obtain ⟨c,t,own,nonzero,next,less⟩ := falls all[k*n-1] all[k*n]
      ⟨hk,List.getElem?_eq_getElem (by omega),List.getElem?_eq_getElem more⟩
    exact ⟨c,t,own,nonzero,next,less,keyed⟩

theorem clear_all_iff {all : List α} (sorted : Paging.Descending key all) (hn : 0 < n) {m : Nat} {P : Nat → Prop}
    (one : P 1) (inside : ∀ k, P k → k*n < all.length → k*n < m) :
    (∀ k, 0 < k → P k → k*n < all.length → Paging.Clear key all n m k) ↔
      (∀ k x y, P k → Boundary all n k x y → Falls key x y) ∧
        (n < all.length → ∀ z ∈ all.take m, (key z).isSome = true) := by
  constructor
  · intro clear
    refine ⟨fun k x y bound boundary => ?_,fun more => ?_⟩
    · have more : k*n < all.length := (List.getElem?_eq_some_iff.1 boundary.2.2).1
      exact ((clear_iff_boundary sorted hn boundary.1 (inside k bound more) more).1
        (clear k boundary.1 bound more)).1 x y boundary
    · rw [← Nat.one_mul n] at more
      exact ((clear_iff_boundary sorted hn Nat.one_pos (inside 1 one more) more).1 (clear 1 Nat.one_pos one more)).2
  · rintro ⟨falls,keyed⟩ k hk bound more
    have page := Nat.le_mul_of_pos_left n hk
    exact (clear_iff_boundary sorted hn hk (inside k bound more) more).2
      ⟨fun x y => falls k x y bound,keyed (by omega)⟩

theorem nodup_sortNewest (key : α → Option Double) (collation : Collation) {xs : List α}
    (distinct : (xs.map id).Nodup) : (sortNewest key id collation xs).Nodup :=
  (perm_sortNewest key id collation xs).nodup_iff.2 (List.Nodup.of_map id distinct)

variable {xs : List α} (distinct : (xs.map id).Nodup) (same_id : ∀ x, (summary x).id = id x)

include distinct same_id

theorem mem_of_summary {fuel : Nat} {c : Option Double} {z : α} (listed : z ∈ xs)
    (h : summary z ∈ (Paging.returned key (sortNewest key id collation xs) n fuel c).map summary) :
    z ∈ Paging.returned key (sortNewest key id collation xs) n fuel c := by
  obtain ⟨y,found,alike⟩ := List.mem_map.1 h
  have y_listed : y ∈ xs := (perm_sortNewest key id collation xs).mem_iff.1 (Paging.mem_of_mem_returned found)
  have same : id y = id z := by rw [← same_id y,← same_id z,alike]
  rwa [← List.inj_on_of_nodup_map distinct y_listed listed same]

theorem enumerates_iff_clear (lists : Lists list key (sortNewest key id collation xs) n summary) (hn : 0 < n) :
    Enumerates list (newest key id collation) summary xs ↔
      ∀ k, 0 < k → k*n < xs.length →
        Paging.Clear key (sortNewest key id collation xs) n (sortNewest key id collation xs).length k := by
  have perm := perm_sortNewest key id collation xs
  have sorted := descending_of_pairwise (pairwise_sortNewest key id collation xs)
  have nodup := nodup_sortNewest key collation distinct
  have run := fun fuel => lists.followCursors_eq fuel none
  constructor
  · rintro ⟨fuel,out,shown,all,-⟩ k hk more
    rw [← perm.length_eq] at more
    refine Paging.clear_of_shown sorted nodup hn (fun z mem => ⟨fuel,?_⟩) hk more more
    have followed := run fuel
    rw [cursorText,Option.map_none,shown] at followed
    obtain ⟨rows,follow,same⟩ := Option.map_eq_some_iff.1 followed.symm
    have listed : z ∈ xs := perm.mem_iff.1 (List.mem_of_mem_take mem)
    have summarized : summary z ∈ rows.map summary := by
      rw [same]
      exact List.mem_map_of_mem (all.mem_iff.2 listed)
    rw [← Paging.returned_of_follow follow] at summarized
    exact mem_of_summary distinct same_id listed summarized
  · intro clear
    obtain ⟨fuel,whole⟩ := (Paging.follow_iff sorted nodup hn).2 fun k hk more => clear k hk (by rwa [← perm.length_eq])
    refine ⟨fuel,sortNewest key id collation xs,?_,perm,pairwise_sortNewest key id collation xs⟩
    have followed := run fuel
    rw [whole] at followed
    exact followed

theorem finds_iff_clear {find : JsText → Option ThreadSummary}
    (finds : ∀ threadId, find threadId = findFrom list threadId 10 none)
    (lists : Lists list key (sortNewest key id collation xs) 100 summary) :
    Finds find summary (sortNewest key id collation xs) ↔
      ∀ k, 0 < k → k < 10 → k*100 < xs.length →
        Paging.Clear key (sortNewest key id collation xs) 100 (10*100) k := by
  have perm := perm_sortNewest key id collation xs
  have sorted := descending_of_pairwise (pairwise_sortNewest key id collation xs)
  have nodup := nodup_sortNewest key collation distinct
  have shown_iff : ∀ x ∈ (sortNewest key id collation xs).take (10*100),
      (find (summary x).id = some (summary x) ↔
        x ∈ Paging.returned key (sortNewest key id collation xs) 100 10 none) := by
    intro x mem
    have listed : x ∈ xs := perm.mem_iff.1 (List.mem_of_mem_take mem)
    have found := lists.findFrom_eq (summary x).id 10 none
    rw [cursorText,Option.map_none] at found
    rw [finds,found]
    constructor
    · intro h
      exact mem_of_summary distinct same_id listed (List.mem_of_find?_eq_some h)
    · intro h
      cases hit : ((Paging.returned key (sortNewest key id collation xs) 100 10 none).map summary).find?
          fun thread => thread.id = (summary x).id with
      | none =>
        have := List.find?_eq_none.1 hit _ (List.mem_map_of_mem h)
        simp at this
      | some thread =>
        have same := List.find?_some hit
        obtain ⟨y,shown,rfl⟩ := List.mem_map.1 (List.mem_of_find?_eq_some hit)
        have y_listed : y ∈ xs := perm.mem_iff.1 (Paging.mem_of_mem_returned shown)
        have alike : id y = id x := by
          rw [← same_id y,← same_id x]
          simpa using same
        rw [List.inj_on_of_nodup_map distinct y_listed listed alike]
  rw [← perm.length_eq,← Paging.returned_iff sorted nodup (by omega) 10]
  exact forall₂_congr shown_iff

end Exactness

section Results
variable (other : JsText → Number) (collation : Collation)

theorem falls_index (x y : ThreadSummary) :
    Falls timeOf x y ↔ x.updatedAtMs ≠ 0 ∧ y.updatedAtMs < x.updatedAtMs := by
  simp [Falls,timeOf]

theorem index_enumerates_iff (index : ThreadSet ThreadSummary ThreadSummary.id) (limit : Number) :
    Enumerates (fun cursor => some (listThreadsFromIndex other collation index.threads limit cursor))
        (newest timeOf ThreadSummary.id collation) id index.threads ↔
      ∀ k x y, Boundary (ordered collation index.threads) (pageSize limit) k x y →
        x.updatedAtMs ≠ 0 ∧ y.updatedAtMs < x.updatedAtMs := by
  have same_id : ∀ x : ThreadSummary, (id x).id = x.id := fun _ => rfl
  have all_clear := clear_all_iff (P := fun _ => True) (m := (ordered collation index.threads).length)
    (descending_of_pairwise (pairwise_sortNewest timeOf ThreadSummary.id collation index.threads))
    (pageSize_pos limit) trivial fun k _ more => more
  simp only [true_imp_iff,falls_index,timeOf,Option.isSome_some,implies_true,and_true] at all_clear
  rw [enumerates_iff_clear index.distinct same_id (lists_index other collation index.threads limit)
    (pageSize_pos limit),← (perm_sortNewest timeOf ThreadSummary.id collation index.threads).length_eq]
  exact all_clear

theorem pageSize_hundred : pageSize (.finite 100) = 100 := by
  norm_num [pageSize,safeLimit]
  rfl

theorem index_finds_iff (index : ThreadSet ThreadSummary ThreadSummary.id) (database : Option (List ThreadRow))
    (appServer : Number → Option JsText → Option ThreadPage) :
    Finds (findThreadSummary other collation ⟨some index.threads,database,appServer⟩) id
        (ordered collation index.threads) ↔
      ∀ k x y, k < 10 → Boundary (ordered collation index.threads) 100 k x y →
        x.updatedAtMs ≠ 0 ∧ y.updatedAtMs < x.updatedAtMs := by
  have same_id : ∀ x : ThreadSummary, (id x).id = x.id := fun _ => rfl
  have finds : ∀ threadId, findThreadSummary other collation ⟨some index.threads,database,appServer⟩ threadId =
      findFrom (fun cursor => some (listThreadsFromIndex other collation index.threads (.finite 100) cursor))
        threadId 10 none := fun _ => rfl
  have lists := lists_index other collation index.threads (.finite 100)
  rw [pageSize_hundred] at lists
  have all_clear := clear_all_iff (P := fun k => k < 10) (m := 10*100)
    (descending_of_pairwise (pairwise_sortNewest timeOf ThreadSummary.id collation index.threads))
    (n := 100) (by omega) (by omega) fun k less _ => by omega
  simp only [falls_index,timeOf,Option.isSome_some,implies_true,and_true] at all_clear
  rw [ordered,finds_iff_clear index.distinct same_id finds lists,
    ← (perm_sortNewest timeOf ThreadSummary.id collation index.threads).length_eq]
  exact all_clear

theorem distinct_unarchived (database : ThreadSet ThreadRow ThreadRow.id) :
    ((unarchived database.threads).map ThreadRow.id).Nodup :=
  database.distinct.sublist (List.filter_sublist.map _)

theorem database_enumerates_iff (database : ThreadSet ThreadRow ThreadRow.id) (limit : Number) :
    Enumerates (listThreads other collation database.threads limit)
        (newest ThreadRow.updated_at_ms ThreadRow.id collation) mapThreadRow (unarchived database.threads) ↔
      (addOne (safeLimit limit)).isInt = true ∧
      (∀ k x y, Boundary (orderedRows collation database.threads) (pageSize limit) k x y →
        Falls ThreadRow.updated_at_ms x y) ∧
      (pageSize limit < (unarchived database.threads).length →
        ∀ row ∈ unarchived database.threads, row.updated_at_ms.isSome = true) := by
  by_cases integral : (addOne (safeLimit limit)).isInt = true
  · have perm := perm_sortNewest ThreadRow.updated_at_ms ThreadRow.id collation (unarchived database.threads)
    have all_clear := clear_all_iff (P := fun _ => True) (m := (orderedRows collation database.threads).length)
      (descending_of_pairwise (pairwise_sortNewest ThreadRow.updated_at_ms ThreadRow.id collation
        (unarchived database.threads)))
      (pageSize_pos limit) trivial fun k _ more => more
    have whole := List.take_of_length_le (Nat.le_of_eq perm.length_eq)
    simp only [true_imp_iff,orderedRows,perm.length_eq,whole,perm.mem_iff] at all_clear
    rw [enumerates_iff_clear (distinct_unarchived database) (fun _ => rfl)
      (lists_database other collation database.threads limit integral) (pageSize_pos limit),perm.length_eq]
    simp only [integral,true_and]
    exact all_clear
  · refine ⟨fun shown => ?_,fun h => absurd h.1 integral⟩
    obtain ⟨fuel,out,followed,-⟩ := shown
    have fails : listThreads other collation database.threads limit none = none :=
      if_pos (Bool.eq_false_of_not_eq_true integral)
    cases fuel with
    | zero => cases followed
    | succ fuel =>
      rw [followCursors,fails] at followed
      cases followed

theorem database_finds_iff (database : ThreadSet ThreadRow ThreadRow.id)
    (appServer : Number → Option JsText → Option ThreadPage) :
    Finds (findThreadSummary other collation ⟨none,some database.threads,appServer⟩) mapThreadRow
        (orderedRows collation database.threads) ↔
      (∀ k x y, k < 10 → Boundary (orderedRows collation database.threads) 100 k x y →
        Falls ThreadRow.updated_at_ms x y) ∧
      (100 < (unarchived database.threads).length →
        ∀ row ∈ (orderedRows collation database.threads).take (10*100), row.updated_at_ms.isSome = true) := by
  have finds : ∀ threadId, findThreadSummary other collation ⟨none,some database.threads,appServer⟩ threadId =
      findFrom (listThreads other collation database.threads (.finite 100)) threadId 10 none := fun _ => rfl
  have perm := perm_sortNewest ThreadRow.updated_at_ms ThreadRow.id collation (unarchived database.threads)
  have integral : (addOne (safeLimit (.finite 100))).isInt = true := by
    have hundred : safeLimit (.finite 100) = 100 := by norm_num [safeLimit]
    have double : IsDouble ((101 : Nat) : Rat) := isDouble_natCast (by norm_num)
    rw [hundred,addOne,(by norm_num : (100 : Rat)+1 = (101 : Nat)),double.1]
    rfl
  have lists := lists_database other collation database.threads (.finite 100) integral
  rw [pageSize_hundred] at lists
  have all_clear := clear_all_iff (P := fun k => k < 10) (m := 10*100)
    (descending_of_pairwise (pairwise_sortNewest ThreadRow.updated_at_ms ThreadRow.id collation
      (unarchived database.threads)))
    (n := 100) (by omega) (by omega) fun k less _ => by omega
  rw [perm.length_eq] at all_clear
  rw [orderedRows,finds_iff_clear (distinct_unarchived database) (fun _ => rfl) finds lists]
  exact all_clear

/-- When paging goes through all threads, by the index and by the database, and when a thread of the
first ten pages is found by either. -/
theorem paging_enumerates_iff (index : ThreadSet ThreadSummary ThreadSummary.id)
    (database : ThreadSet ThreadRow ThreadRow.id) (appServer : Number → Option JsText → Option ThreadPage)
    (limit : Number) :
    (Enumerates (fun cursor => some (listThreadsFromIndex other collation index.threads limit cursor))
        (newest timeOf ThreadSummary.id collation) id index.threads ↔
      ∀ k x y, Boundary (ordered collation index.threads) (pageSize limit) k x y →
        x.updatedAtMs ≠ 0 ∧ y.updatedAtMs < x.updatedAtMs) ∧
    (Finds (findThreadSummary other collation ⟨some index.threads,some database.threads,appServer⟩) id
        (ordered collation index.threads) ↔
      ∀ k x y, k < 10 → Boundary (ordered collation index.threads) 100 k x y →
        x.updatedAtMs ≠ 0 ∧ y.updatedAtMs < x.updatedAtMs) ∧
    (Enumerates (listThreads other collation database.threads limit)
        (newest ThreadRow.updated_at_ms ThreadRow.id collation) mapThreadRow (unarchived database.threads) ↔
      (addOne (safeLimit limit)).isInt = true ∧
      (∀ k x y, Boundary (orderedRows collation database.threads) (pageSize limit) k x y →
        Falls ThreadRow.updated_at_ms x y) ∧
      (pageSize limit < (unarchived database.threads).length →
        ∀ row ∈ unarchived database.threads, row.updated_at_ms.isSome = true)) ∧
    (Finds (findThreadSummary other collation ⟨none,some database.threads,appServer⟩) mapThreadRow
        (orderedRows collation database.threads) ↔
      (∀ k x y, k < 10 → Boundary (orderedRows collation database.threads) 100 k x y →
        Falls ThreadRow.updated_at_ms x y) ∧
      (100 < (unarchived database.threads).length →
        ∀ row ∈ (orderedRows collation database.threads).take (10*100), row.updated_at_ms.isSome = true)) :=
  ⟨index_enumerates_iff other collation index limit,
    index_finds_iff other collation index (some database.threads) appServer,
    database_enumerates_iff other collation database limit,database_finds_iff other collation database appServer⟩

def unitOrder : Collation where
  le a b := a.map UInt16.toNat ≤ b.map UInt16.toNat
  total a b := by simpa using le_total (a.map UInt16.toNat) (b.map UInt16.toNat)
  trans a b c := by simpa using le_trans

def twins : ThreadSet ThreadSummary ThreadSummary.id where
  threads := [⟨ofString "a",⟨5,by simpa using isDouble_natCast (n := 5) (by norm_num)⟩⟩,
    ⟨ofString "b",⟨5,by simpa using isDouble_natCast (n := 5) (by norm_num)⟩⟩]
  distinct := by decide

/-- By pages of one the second twin is lost. -/
theorem twin_lost : ¬ ∀ (other : JsText → Number) (collation : Collation)
    (index : ThreadSet ThreadSummary ThreadSummary.id) (limit : Number),
    Enumerates (fun cursor => some (listThreadsFromIndex other collation index.threads limit cursor))
      (newest timeOf ThreadSummary.id collation) id index.threads := by
  intro h
  have falls := (index_enumerates_iff (fun _ => .nan) unitOrder twins (.finite 1)).1 (h _ _ _ _)
  have one : pageSize (.finite 1) = 1 := by norm_num [pageSize,safeLimit]
  rw [one] at falls
  have first := falls 1 _ _ ⟨Nat.one_pos,rfl,rfl⟩
  exact lt_irrefl _ first.2

end Results

end CodeHarbor.Gateway.Threads
