import Mathlib.Data.List.Sort
import ResilienceProof.BreakerScripts
import ResilienceProof.MachineIntegers
import ResilienceProof.Responders

/-! # The script of the sliding window log, in Lua and in memory

The distributed log keeps a sorted set under one key: one member for each request
admitted of late, with the time as its score.  `SlidingWindowLogScript` leaves the set to
Redis; `slidingWindowLogHandler` emulates it with a sorted slice, which it writes into the
text of an entry and reads back on the next call.

A sorted set is a list of members here, in any order for Redis, which is only asked for
their number and the lowest score.  The slice of the handler is always a permutation of
that list, in the order of the scores, so the handler answers as the script
(`logHandler_answers`).  In the scripts numbers are exact integers, and keys do not expire.
The scores of Redis are binary64 numbers; the slice has the members of the set of Redis if
all scores are such numbers, and may have others if not (`sortedSet_refines`).
-/
namespace Resilience.Store

/-- `zmember`. -/
structure ZMember where
  score : Int
  member : Text
  deriving DecidableEq, Repr

/-- A call: the arguments that change from call to call.  `now` is the time the script
works with. -/
structure LogArrival where
  now : Int
  n : Int
  id : Text
  ttlMs : Int
  deriving DecidableEq, Repr

/-- The member for the `i`-th request of a call. -/
def memberName (id : Text) (i : Nat) : Text := id ++ '-' :: Nat.toDigits 10 i

/-- The members for `n` requests, counted from 1. -/
def memberNames (id : Text) (n : Int) : List Text :=
  (List.range n.toNat).map fun i => memberName id (i + 1)

/-- The wait until the oldest member leaves the window. -/
def untilOldest (windowNs now : Int) : Option Int → Int
  | none => 0
  | some oldest =>
    let retryAfter := windowNs - (now - oldest)
    if retryAfter < 0 then 0 else retryAfter

/-- Milliseconds, rounded up to seconds. -/
def ceilSeconds (ttlMs : Int) : Int := -((-ttlMs).fdiv 1000) * 1000

/-- The members after a new score for one of them, if it is there. -/
def setScore (score : Int) (member : Text) : List ZMember → Option (List ZMember)
  | [] => none
  | m :: ms =>
    if m.member = member then some (⟨score, member⟩ :: ms)
    else (setScore score member ms).map (m :: ·)

/-! ## The script -/

/-- `ZADD`, with a score that Redis can represent. -/
def zadd (score : Int) (member : Text) (z : List ZMember) : List ZMember :=
  (setScore score member z).getD (z ++ [⟨score, member⟩])

/-- `ZREMRANGEBYSCORE key -inf cutoff`, for such a cutoff. -/
def zremrangebyscore (cutoff : Int) (z : List ZMember) : List ZMember :=
  z.filter fun m => cutoff < m.score

/-- The score of `ZRANGE key 0 0`. -/
def lowestScore (z : List ZMember) : Option Int := (z.map ZMember.score).min?

/-- What the script leaves. -/
structure LogRan where
  reply : List Int
  members : List ZMember
  ttlMs : Int

/-- `SlidingWindowLogScript`. -/
def slidingWindowLogScript (limit windowNs : Int) (c : LogArrival) (z : List ZMember) : LogRan :=
  let z := zremrangebyscore (c.now - windowNs) z
  let count : Int := z.length
  if limit < count + c.n then
    ⟨[0, count, untilOldest windowNs c.now (lowestScore z)], z, ceilSeconds c.ttlMs⟩
  else
    ⟨[1, count + c.n, 0], (memberNames c.id c.n).foldl (fun z m => zadd c.now m z) z, c.ttlMs⟩

/-! ## The handler -/

/-- An argument, as it arrives in Go. -/
inductive Arg where
  | int (v : Int)
  | text (s : Text)
  deriving DecidableEq, Repr

/-- `toInt64`. -/
def Arg.toInt64 : Arg → Except String Int
  | int v => .ok v
  | text s =>
    match parseInt s with
    | some v => .ok v
    | none => .error ("strconv.ParseInt: parsing \"" ++ String.ofList s ++ "\": invalid syntax")

/-- `toString`. -/
def Arg.toText : Arg → Text
  | int v => formatInt v
  | text s => s

/-- A record of `parseZSet`: a score, a separator and the member; anything else is
skipped. -/
def parseRecord (rec : Text) : Option ZMember :=
  match rec.dropWhile (· ≠ '\x1f') with
  | [] => none
  | _ :: member => (parseInt (rec.takeWhile (· ≠ '\x1f'))).map fun score => ⟨score, member⟩

/-- `parseZSet`. -/
def parseZSet (s : Text) : List ZMember :=
  if s = [] then [] else (s.splitOn '\x1e').filterMap parseRecord

/-- A record of `zset.serialize`. -/
def ZMember.record (m : ZMember) : Text := formatInt m.score ++ '\x1f' :: m.member

/-- `zset.serialize`. -/
def serializeZSet (z : List ZMember) : Text := ['\x1e'].intercalate (z.map ZMember.record)

/-- The inner loop of `zset.resort`, over the members before `x`, last one first: `x`
moves down past every higher score. -/
def sink (x : ZMember) : List ZMember → List ZMember
  | [] => [x]
  | y :: ys => if x.score < y.score then y :: sink x ys else x :: y :: ys

/-- `zset.resort`. -/
def resort (z : List ZMember) : List ZMember := (z.foldl (fun done x => sink x done) []).reverse

/-- `zset.add`. -/
def addMember (score : Int) (member : Text) (z : List ZMember) : List ZMember :=
  match setScore score member z with
  | some z => resort z
  | none => resort (z ++ [⟨score, member⟩])

/-- `zset.removeByScoreUpTo`. -/
def removeByScoreUpTo (cutoff : Int) (z : List ZMember) : List ZMember :=
  z.dropWhile fun m => m.score ≤ cutoff

/-- `slidingWindowLogHandler`.  Without a sixth argument, or with one that is no number,
one request is asked for. -/
def slidingWindowLogHandler (args : List Arg) (value : Option Text) : Except String Evaluated :=
  match args with
  | limit :: windowNs :: nowNs :: entryID :: ttlMs :: rest => do
      let limit ← limit.toInt64
      let windowNs ← windowNs.toInt64
      let nowNs ← nowNs.toInt64
      let entryID := entryID.toText
      let ttlMs ← ttlMs.toInt64
      let n := (rest.head?.bind fun a => a.toInt64.toOption).getD 1
      let zs := removeByScoreUpTo (nowNs - windowNs) (parseZSet (value.getD []))
      let count : Int := zs.length
      if limit < count + n then
        .ok ⟨[0, count, untilOldest windowNs nowNs (zs.head?.map ZMember.score)],
          some (serializeZSet zs), some (ceilSeconds ttlMs)⟩
      else
        .ok ⟨[1, count + n, 0],
          some (serializeZSet ((memberNames entryID n).foldl (fun zs m => addMember nowNs m zs) zs)),
          some ttlMs⟩
  | _ => .error ("slidingWindowLogHandler: expected >=5 args, got " ++ toString args.length)

/-- The arguments of a call. -/
def LogArrival.args (limit windowNs : Int) (c : LogArrival) : List Arg :=
  [.int limit, .int windowNs, .int c.now, .text c.id, .int c.ttlMs, .int c.n]

/-! ## Texts -/

theorem parseZSet_eq (s : Text) : parseZSet s = (s.splitOn '\x1e').filterMap parseRecord := by
  unfold parseZSet
  split
  · rename_i h
    subst h
    rfl
  · rfl

theorem parseRecord_record (m : ZMember) : parseRecord m.record = some m := by
  have hscore : ∀ c ∈ formatInt m.score, (decide (c ≠ '\x1f')) = true := by
    intro c hc
    refine decide_eq_true fun h => ?_
    subst h
    exact notMem_formatInt (by decide) (by decide) _ hc
  have hdrop : m.record.dropWhile (· ≠ '\x1f') = '\x1f' :: m.member := by
    rw [ZMember.record, List.dropWhile_append_of_pos hscore]
    rfl
  have htake : m.record.takeWhile (· ≠ '\x1f') = formatInt m.score := by
    rw [ZMember.record, List.takeWhile_append_of_pos hscore]
    simp
  rw [parseRecord, hdrop, htake, parseInt_formatInt]
  rfl

variable {z : List ZMember}

/-- **The set survives its text**, if no member has the separator of the records in it. -/
theorem parseZSet_serializeZSet (h : ∀ m ∈ z, '\x1e' ∉ m.member) :
    parseZSet (serializeZSet z) = z := by
  by_cases hnil : z = []
  · subst hnil
    rfl
  · have hparts : ∀ part ∈ z.map ZMember.record, '\x1e' ∉ part := by
      intro part hpart
      obtain ⟨m, hm, rfl⟩ := List.mem_map.mp hpart
      exact notMem_append_sep (notMem_formatInt (by decide) (by decide) _) (by decide) (h m hm)
    rw [parseZSet_eq, serializeZSet, List.splitOn_intercalate _ hparts (by simpa using hnil),
      List.filterMap_map]
    exact (List.filterMap_congr fun m _ => parseRecord_record m).trans List.filterMap_some

/-! ## Names -/

theorem memberName_inj {id id' : Text} {i i' : Nat} (h : memberName id i = memberName id' i') :
    id = id' ∧ i = i' := by
  obtain ⟨hid, hdig⟩ :=
    append_sep_inj (notMem_toDigits (by decide) i) (notMem_toDigits (by decide) i') h
  refine ⟨hid, ?_⟩
  rw [← Nat.ofDigitChars_ten_toDigits (n := i), hdig, Nat.ofDigitChars_ten_toDigits]

theorem memberNames_nodup (id : Text) (n : Int) : (memberNames id n).Nodup := by
  refine List.Nodup.map_on ?_ List.nodup_range
  intro i _ j _ h
  have := (memberName_inj h).2
  omega

theorem notMem_memberName {id : Text} (h : '\x1e' ∉ id) (i : Nat) : '\x1e' ∉ memberName id i :=
  notMem_append_sep h (by decide) (notMem_toDigits (by decide) i)

/-! ## Sets in the order of their scores -/

/-- Members in the order of their scores. -/
def InOrder (z : List ZMember) : Prop := z.Pairwise fun a b => a.score ≤ b.score

/-- The loop of `resort` is insertion from behind. -/
theorem sink_eq (x : ZMember) (z : List ZMember) :
    sink x z = z.orderedInsert (fun a b => b.score ≤ a.score) x := by
  induction z with
  | nil => rfl
  | cons y ys ih =>
    rw [sink, List.orderedInsert_cons]
    by_cases h : x.score < y.score
    · rw [if_pos h, if_neg (Int.not_le.mpr h), ih]
    · rw [if_neg h, if_pos (Int.not_lt.mp h)]

theorem resort_eq (z : List ZMember) :
    resort z = (z.reverse.insertionSort fun a b => b.score ≤ a.score).reverse := by
  have hfold : (fun (done : List ZMember) x => sink x done) =
      fun done x => done.orderedInsert (fun a b => b.score ≤ a.score) x := by
    funext done x
    exact sink_eq x done
  rw [resort, hfold, ← List.foldr_reverse]
  rfl

theorem resort_perm (z : List ZMember) : (resort z).Perm z := by
  rw [resort_eq]
  exact (List.reverse_perm _).trans ((List.perm_insertionSort _ _).trans (List.reverse_perm _))

instance : Std.Total fun a b : ZMember => b.score ≤ a.score := ⟨fun a b => le_total b.score a.score⟩

instance : IsTrans ZMember fun a b => b.score ≤ a.score := ⟨fun _ _ _ h₁ h₂ => h₂.trans h₁⟩

theorem resort_inOrder (z : List ZMember) : InOrder (resort z) := by
  rw [resort_eq, InOrder, List.pairwise_reverse]
  exact List.pairwise_insertionSort _ _

theorem removeByScoreUpTo_eq (h : InOrder z) (cutoff : Int) :
    removeByScoreUpTo cutoff z = zremrangebyscore cutoff z := by
  unfold removeByScoreUpTo zremrangebyscore
  induction z with
  | nil => rfl
  | cons m ms ih =>
    obtain ⟨hm, hms⟩ := List.pairwise_cons.mp h
    by_cases hle : m.score ≤ cutoff
    · rw [List.dropWhile_cons_of_pos (by simpa using hle),
        List.filter_cons_of_neg (by simpa using hle), ih hms]
    · rw [List.dropWhile_cons_of_neg (by simpa using hle)]
      refine (List.filter_eq_self.mpr ?_).symm
      intro a ha
      have hge : m.score ≤ a.score := by
        rcases List.mem_cons.mp ha with rfl | ha
        · exact Int.le_refl _
        · exact hm a ha
      exact decide_eq_true (by omega)

variable {z z' : List ZMember}

theorem lowestScore_eq (h : InOrder z) (hperm : z.Perm z') :
    z.head?.map ZMember.score = lowestScore z' := by
  cases z with
  | nil =>
    rw [hperm.symm.eq_nil]
    rfl
  | cons m ms =>
    obtain ⟨hm, -⟩ := List.pairwise_cons.mp h
    refine (List.min?_eq_some_iff.mpr ⟨?_, ?_⟩).symm
    · exact List.mem_map_of_mem (hperm.mem_iff.mp List.mem_cons_self)
    · intro score hscore
      obtain ⟨a, ha, rfl⟩ := List.mem_map.mp hscore
      rcases List.mem_cons.mp (hperm.mem_iff.mpr ha) with rfl | ha
      · exact Int.le_refl _
      · exact hm a ha

/-! ## Adding new members -/

variable (score : Int)

theorem setScore_eq_none {member : Text} (h : ∀ m ∈ z, m.member ≠ member) :
    setScore score member z = none := by
  induction z with
  | nil => rfl
  | cons m ms ih =>
    obtain ⟨hm, hms⟩ := List.forall_mem_cons.mp h
    rw [setScore, if_neg hm, ih hms]
    rfl

variable {names : List Text}

theorem new_cons {name : Text} (hname : name ∉ names) (now : Int)
    (hnew : ∀ m ∈ z, m.member ∉ name :: names) :
    (∀ m ∈ z, m.member ≠ name) ∧ ∀ m ∈ z ++ [⟨now, name⟩], m.member ∉ names := by
  refine ⟨fun m hm h => hnew m hm (h ▸ List.mem_cons_self), fun m hm hmem => ?_⟩
  rcases List.mem_append.mp hm with hm | hm
  · exact hnew m hm (List.mem_cons_of_mem _ hmem)
  · rw [List.mem_singleton.mp hm] at hmem
    exact hname hmem

/-- **New members in Redis** are added one by one. -/
theorem foldl_zadd (hnodup : names.Nodup) (now : Int) (hnew : ∀ m ∈ z, m.member ∉ names) :
    names.foldl (fun z m => zadd now m z) z = z ++ names.map fun m => ⟨now, m⟩ := by
  induction names generalizing z with
  | nil => simp
  | cons name names ih =>
    obtain ⟨hname, hnames⟩ := List.nodup_cons.mp hnodup
    obtain ⟨hfirst, hothers⟩ := new_cons hname now hnew
    have hadd : zadd now name z = z ++ [⟨now, name⟩] := by
      rw [zadd, setScore_eq_none now hfirst]
      rfl
    rw [List.foldl_cons, hadd, ih hnames hothers]
    simp

/-! ## Adding members under any names -/

/-- No two members have the same name, and no name has the separator of the records in it. -/
def Sound (z : List ZMember) : Prop :=
  (z.map ZMember.member).Nodup ∧ ∀ m ∈ z, '\x1e' ∉ m.member

variable (member : Text)

theorem addMember_eq (z : List ZMember) :
    addMember score member z = resort (zadd score member z) := by
  unfold addMember zadd
  cases setScore score member z with | none | some => rfl

theorem zadd_cons (m : ZMember) (z : List ZMember) :
    zadd score member (m :: z) =
      if m.member = member then ⟨score, member⟩ :: z else m :: zadd score member z := by
  rw [zadd, setScore, zadd]
  split
  · rfl
  · cases setScore score member z with | none | some => rfl

/-- **`ZADD`** replaces the member of that name. -/
theorem zadd_perm (h : (z.map ZMember.member).Nodup) :
    (zadd score member z).Perm (⟨score, member⟩ :: z.filter fun m => m.member ≠ member) := by
  induction z with
  | nil => exact List.Perm.refl _
  | cons m z ih =>
    obtain ⟨hm, hz⟩ := List.nodup_cons.mp h
    rw [zadd_cons]
    by_cases heq : m.member = member
    · rw [if_pos heq, List.filter_cons_of_neg (by simpa using heq)]
      have hothers : z.filter (fun x => x.member ≠ member) = z := by
        refine List.filter_eq_self.mpr fun x hx => decide_eq_true fun hname => hm ?_
        rw [heq, ← hname]
        exact List.mem_map_of_mem hx
      rw [hothers]
    · rw [if_neg heq, List.filter_cons_of_pos (by simpa using heq)]
      exact ((ih hz).cons m).trans (List.Perm.swap _ _ _)

theorem zadd_congr (h : (z.map ZMember.member).Nodup) (hperm : z.Perm z') :
    (zadd score member z).Perm (zadd score member z') := by
  have h' : (z'.map ZMember.member).Nodup := (hperm.map _).nodup_iff.mp h
  exact (zadd_perm score member h).trans
    (((hperm.filter _).cons _).trans (zadd_perm score member h').symm)

theorem Sound.zadd (h : Sound z) {member : Text} (hsep : '\x1e' ∉ member) :
    Sound (zadd score member z) := by
  obtain ⟨hnodup, hnames⟩ := h
  have hperm := zadd_perm score member hnodup
  have hfilter : ((z.filter fun m => m.member ≠ member).map ZMember.member).Nodup :=
    hnodup.sublist (List.filter_sublist.map _)
  refine ⟨(hperm.map _).nodup_iff.mpr (List.nodup_cons.mpr ⟨?_, hfilter⟩), fun m hm => ?_⟩
  · intro hmem
    obtain ⟨m, hm, hname⟩ := List.mem_map.mp hmem
    exact of_decide_eq_true (List.mem_filter.mp hm).2 hname
  · rcases List.mem_cons.mp (hperm.mem_iff.mp hm) with rfl | hm
    · exact hsep
    · exact hnames m (List.mem_of_mem_filter hm)

theorem Sound.filter (h : Sound z) (φ : ZMember → Bool) : Sound (z.filter φ) :=
  ⟨h.1.sublist (List.filter_sublist.map _), fun m hm => h.2 m (List.mem_of_mem_filter hm)⟩

/-- The slice of the handler, and the set that Redis would have: the same members, in the order
of their scores. -/
structure Refines (zs z : List ZMember) : Prop where
  order : InOrder zs
  perm : zs.Perm z
  sound : Sound z

/-- What is done to a set; between two operations it may be written and read again. -/
inductive SetOp where
  | add (score : Int) (member : Text)
  | removeByScoreUpTo (cutoff : Int)
  | reload
  deriving DecidableEq, Repr

/-- The operation on the slice. -/
def SetOp.run (zs : List ZMember) : SetOp → List ZMember
  | add score member => addMember score member zs
  | removeByScoreUpTo cutoff => Store.removeByScoreUpTo cutoff zs
  | reload => parseZSet (serializeZSet zs)

/-- The operation on the set, with exact numbers. -/
def SetOp.onSet (z : List ZMember) : SetOp → List ZMember
  | add score member => zadd score member z
  | removeByScoreUpTo cutoff => zremrangebyscore cutoff z
  | reload => z

/-- The operation in Redis, where scores are binary64 numbers. -/
def SetOp.redis (z : List ZMember) : SetOp → List ZMember
  | add score member => zadd (toDouble score) member z
  | removeByScoreUpTo cutoff => zremrangebyscore (toDouble cutoff) z
  | reload => z

/-- The number of the operation is a binary64 number. -/
def SetOp.Exact : SetOp → Prop
  | add score _ => toDouble score = score
  | removeByScoreUpTo cutoff => toDouble cutoff = cutoff
  | reload => True

instance : DecidablePred SetOp.Exact
  | .add score _ => inferInstanceAs (Decidable (toDouble score = score))
  | .removeByScoreUpTo cutoff => inferInstanceAs (Decidable (toDouble cutoff = cutoff))
  | .reload => isTrue trivial

theorem SetOp.redis_of_exact {op : SetOp} (h : op.Exact) (z : List ZMember) :
    op.redis z = op.onSet z := by
  cases op with
  | add score member => rw [redis, onSet, show toDouble score = score from h]
  | removeByScoreUpTo cutoff => rw [redis, onSet, show toDouble cutoff = cutoff from h]
  | reload => rfl

theorem SetOp.foldl_redis {ops : List SetOp} (h : ∀ op ∈ ops, op.Exact) (z : List ZMember) :
    ops.foldl redis z = ops.foldl onSet z :=
  List.foldl_ext _ _ _ fun z _ hop => redis_of_exact (h _ hop) z

/-- The operation adds no member with the separator of the records in it. -/
def SetOp.Separate : SetOp → Prop
  | add _ member => '\x1e' ∉ member
  | _ => True

instance : DecidablePred SetOp.Separate
  | .add _ member => inferInstanceAs (Decidable ('\x1e' ∉ member))
  | .removeByScoreUpTo _ | .reload => isTrue trivial

namespace Refines
variable {zs z : List ZMember}

theorem reload (h : Refines zs z) : parseZSet (serializeZSet zs) = zs :=
  parseZSet_serializeZSet fun m hm => h.sound.2 m (h.perm.mem_iff.mp hm)

theorem distinct (h : Refines zs z) : (zs.map ZMember.member).Nodup :=
  (h.perm.map _).nodup_iff.mpr h.sound.1

theorem run (h : Refines zs z) {op : SetOp} (hop : op.Separate) :
    Refines (op.run zs) (op.onSet z) := by
  cases op with
  | add score member =>
    rw [SetOp.run, addMember_eq]
    exact ⟨resort_inOrder _, (resort_perm _).trans (zadd_congr score member h.distinct h.perm),
      h.sound.zadd score hop⟩
  | removeByScoreUpTo cutoff =>
    rw [SetOp.run, removeByScoreUpTo_eq h.order]
    exact ⟨h.order.sublist List.filter_sublist, h.perm.filter _, h.sound.filter _⟩
  | reload =>
    rw [SetOp.run, h.reload]
    exact h

theorem runs {ops : List SetOp} (h : Refines zs z) (hops : ∀ op ∈ ops, op.Separate) :
    Refines (ops.foldl SetOp.run zs) (ops.foldl SetOp.onSet z) := by
  induction ops generalizing zs z with
  | nil => exact h
  | cons op ops ih =>
    obtain ⟨hop, hrest⟩ := List.forall_mem_cons.mp hops
    exact ih (h.run hop) hrest

end Refines

/-- **The slice refines the set of Redis.**  Under any operations its members are distinct and in
the order of their scores, and it survives its text; and its members are those of the set, if
all scores are binary64 numbers. -/
theorem sortedSet_refines {ops : List SetOp} (hops : ∀ op ∈ ops, op.Separate) :
    ((ops.foldl SetOp.run []).map ZMember.member).Nodup ∧ InOrder (ops.foldl SetOp.run []) ∧
      ((∀ op ∈ ops, op.Exact) → (ops.foldl SetOp.run []).Perm (ops.foldl SetOp.redis [])) ∧
      parseZSet (serializeZSet (ops.foldl SetOp.run [])) = ops.foldl SetOp.run [] := by
  have hempty : Refines [] [] :=
    ⟨List.Pairwise.nil, List.Perm.refl _, List.nodup_nil, fun _ hm => absurd hm List.not_mem_nil⟩
  have h := hempty.runs hops
  refine ⟨h.distinct, h.order, fun hexact => ?_, h.reload⟩
  rw [SetOp.foldl_redis hexact]
  exact h.perm

/-- A member gets a new score, and one is dropped. -/
def movesAndDrops : List SetOp :=
  [.add 5 ['a'], .add 3 ['b'], .reload, .add 9 ['b'], .add (-1) ['c'], .removeByScoreUpTo (-1)]

/-- The others are kept in order. -/
theorem sortedSet_refines_moved :
    movesAndDrops.foldl SetOp.run [] = [⟨5, ['a']⟩, ⟨9, ['b']⟩] ∧
      (movesAndDrops.foldl SetOp.run []).Perm (movesAndDrops.foldl SetOp.redis []) :=
  ⟨by decide, (sortedSet_refines (by decide)).2.2.1 (by decide +kernel)⟩

/-- Two scores that no binary64 numbers tell apart. -/
def closeScores : List SetOp :=
  [.add 9007199254740992 ['a'], .add 9007199254740993 ['b']]

/-- In Redis the second gets the score of the first, and leaves the set with it. -/
theorem sortedSet_rounds :
    (∀ op ∈ closeScores, op.Separate) ∧
      closeScores.foldl SetOp.run [] = [⟨9007199254740992, ['a']⟩, ⟨9007199254740993, ['b']⟩] ∧
      closeScores.foldl SetOp.redis [] = [⟨9007199254740992, ['a']⟩, ⟨9007199254740992, ['b']⟩] ∧
      (closeScores ++ [SetOp.removeByScoreUpTo 9007199254740992]).foldl SetOp.run [] =
        [⟨9007199254740993, ['b']⟩] ∧
      (closeScores ++ [SetOp.removeByScoreUpTo 9007199254740992]).foldl SetOp.redis [] = [] := by
  decide +kernel

/-- **Members added to the slice** are those added in Redis, and it stays in order. -/
theorem foldl_addMember (now : Int) (hsep : ∀ name ∈ names, '\x1e' ∉ name) {zs z : List ZMember}
    (h : Refines zs z) :
    Refines (names.foldl (fun zs m => addMember now m zs) zs)
      (names.foldl (fun z m => zadd now m z) z) := by
  have hops : ∀ op ∈ names.map (SetOp.add now), op.Separate := by
    rw [List.forall_mem_map]
    exact hsep
  have hruns := h.runs hops
  rw [List.foldl_map, List.foldl_map] at hruns
  exact hruns

/-! ## The handler answers as the script -/

/-- One call of the script, on the members under its key. -/
def logScriptStep (limit windowNs : Int) (c : LogArrival) (z : List ZMember) :
    List Int × List ZMember :=
  ((slidingWindowLogScript limit windowNs c z).reply,
    (slidingWindowLogScript limit windowNs c z).members)

/-- One call of the handler, on the text under its key. -/
def logHandlerStep (limit windowNs : Int) (c : LogArrival) (value : Option Text) :
    Except String (List Int) × Option Text :=
  match slidingWindowLogHandler (c.args limit windowNs) value with
  | .ok r => (.ok r.reply, r.value)
  | .error err => (.error err, value)

/-- The members are those of earlier calls. -/
def NamedBy (past : List LogArrival) (z : List ZMember) : Prop :=
  ∀ m ∈ z, ∃ c ∈ past, ∃ i, m.member = memberName c.id i

section
variable {limit windowNs : Int} {c : LogArrival} {past : List LogArrival} {z : List ZMember}

theorem NamedBy.notMem (h : NamedBy past z) (hids : ∀ c' ∈ past, c'.id ≠ c.id) :
    ∀ m ∈ z, m.member ∉ memberNames c.id c.n := by
  intro m hm hmem
  obtain ⟨c', hc', i, hname⟩ := h m hm
  obtain ⟨j, -, hj⟩ := List.mem_map.mp hmem
  exact hids c' hc' (memberName_inj (hname.symm.trans hj.symm)).1

variable (limit windowNs) in
/-- **What the script leaves**, if the members of an admitted call are new. -/
theorem slidingWindowLogScript_of_new
    (hnew : ¬ limit < (zremrangebyscore (c.now - windowNs) z).length + c.n →
      ∀ m ∈ zremrangebyscore (c.now - windowNs) z, m.member ∉ memberNames c.id c.n) :
    (slidingWindowLogScript limit windowNs c z).members =
      zremrangebyscore (c.now - windowNs) z ++
        (if limit < (zremrangebyscore (c.now - windowNs) z).length + c.n then []
          else (memberNames c.id c.n).map fun m => ⟨c.now, m⟩) := by
  simp only [slidingWindowLogScript]
  split
  · exact (List.append_nil _).symm
  · rename_i hroom
    exact foldl_zadd (memberNames_nodup c.id c.n) c.now (hnew hroom)

variable (limit windowNs) in
theorem slidingWindowLogScript_members (h : NamedBy past z)
    (hids : ∀ c' ∈ past, c'.id ≠ c.id) :
    (slidingWindowLogScript limit windowNs c z).members =
        zremrangebyscore (c.now - windowNs) z ++
          (if limit < (zremrangebyscore (c.now - windowNs) z).length + c.n then []
            else (memberNames c.id c.n).map fun m => ⟨c.now, m⟩) ∧
      NamedBy (c :: past) (slidingWindowLogScript limit windowNs c z).members := by
  have hpruned : ∀ m ∈ zremrangebyscore (c.now - windowNs) z, m ∈ z :=
    fun m hm => List.mem_of_mem_filter hm
  have hmembers := slidingWindowLogScript_of_new limit windowNs (c := c) (z := z)
    fun _ m hm => h.notMem hids m (hpruned m hm)
  refine ⟨hmembers, ?_⟩
  rw [hmembers]
  intro m hm
  rcases List.mem_append.mp hm with hm | hm
  · obtain ⟨c', hc', i, hname⟩ := h m (hpruned m hm)
    exact ⟨c', List.mem_cons_of_mem _ hc', i, hname⟩
  · split at hm
    · cases hm
    · obtain ⟨name, hname, rfl⟩ := List.mem_map.mp hm
      obtain ⟨i, -, rfl⟩ := List.mem_map.mp hname
      exact ⟨c, List.mem_cons_self, i + 1, rfl⟩

/-- The text shows the members of the set, in the order of their scores. -/
def Shows (value : Option Text) (z : List ZMember) : Prop :=
  InOrder (parseZSet (value.getD [])) ∧ (parseZSet (value.getD [])).Perm z

theorem shows_serializeZSet {zs : List ZMember} (h : Refines zs z) :
    Shows (some (serializeZSet zs)) z := by
  unfold Shows
  rw [Option.getD_some, h.reload]
  exact ⟨h.order, h.perm⟩

theorem handler_args (limit windowNs : Int) (c : LogArrival) (value : Option Text) :
    slidingWindowLogHandler (c.args limit windowNs) value =
      let zs := removeByScoreUpTo (c.now - windowNs) (parseZSet (value.getD []))
      if limit < zs.length + c.n then
        .ok ⟨[0, zs.length, untilOldest windowNs c.now (zs.head?.map ZMember.score)],
          some (serializeZSet zs), some (ceilSeconds c.ttlMs)⟩
      else
        .ok ⟨[1, zs.length + c.n, 0],
          some (serializeZSet ((memberNames c.id c.n).foldl (fun zs m => addMember c.now m zs) zs)),
          some c.ttlMs⟩ :=
  rfl

theorem notMem_memberNames {id : Text} (h : '\x1e' ∉ id) (n : Int) :
    ∀ name ∈ memberNames id n, '\x1e' ∉ name := by
  intro name hname
  obtain ⟨i, -, rfl⟩ := List.mem_map.mp hname
  exact notMem_memberName h _

variable (limit windowNs) in
/-- **One call**: the handler leaves the text of the members that the script leaves, and
replies and sets the expiry as the script does. -/
theorem handler_eq_script {value : Option Text} (hshows : Shows value z) (hsound : Sound z)
    (hsep : '\x1e' ∉ c.id) :
    ∃ zs, slidingWindowLogHandler (c.args limit windowNs) value =
        .ok ⟨(slidingWindowLogScript limit windowNs c z).reply, some (serializeZSet zs),
          some (slidingWindowLogScript limit windowNs c z).ttlMs⟩ ∧
      Refines zs (slidingWindowLogScript limit windowNs c z).members := by
  obtain ⟨horder, hperm⟩ := hshows
  have hshown : Refines (parseZSet (value.getD [])) z := ⟨horder, hperm, hsound⟩
  have hop : (SetOp.removeByScoreUpTo (c.now - windowNs)).Separate := trivial
  have hcut : Refines (removeByScoreUpTo (c.now - windowNs) (parseZSet (value.getD [])))
      (zremrangebyscore (c.now - windowNs) z) :=
    hshown.run hop
  simp only [handler_args]
  generalize removeByScoreUpTo (c.now - windowNs) (parseZSet (value.getD [])) = zs at *
  rw [hcut.perm.length_eq, lowestScore_eq hcut.order hcut.perm]
  by_cases hfull : limit < (zremrangebyscore (c.now - windowNs) z).length + c.n
  · simp only [slidingWindowLogScript, hfull, if_true]
    exact ⟨zs, rfl, hcut⟩
  · simp only [slidingWindowLogScript, hfull, if_false]
    exact ⟨_, rfl, foldl_addMember c.now (notMem_memberNames hsep c.n) hcut⟩

variable (limit windowNs) in
/-- **One call**: the handler replies as the script and shows its members. -/
theorem logHandlerStep_eq {value : Option Text} (hshows : Shows value z) (hsound : Sound z)
    (hsep : '\x1e' ∉ c.id) :
    (logHandlerStep limit windowNs c value).1 = .ok (logScriptStep limit windowNs c z).1 ∧
      Shows (logHandlerStep limit windowNs c value).2 (logScriptStep limit windowNs c z).2 ∧
      Sound (logScriptStep limit windowNs c z).2 := by
  obtain ⟨zs, hhandler, hzs⟩ := handler_eq_script limit windowNs hshows hsound hsep
  simp only [logHandlerStep, hhandler]
  exact ⟨rfl, shows_serializeZSet hzs, hzs.sound⟩

/-- **The handler answers as the script** to every sequence of calls with ids that do not
contain the separator of the records. -/
theorem logHandler_answers {calls : List LogArrival} (hsep : ∀ c ∈ calls, '\x1e' ∉ c.id) :
    (answers (logScriptStep limit windowNs) [] calls).map .ok =
      answers (logHandlerStep limit windowNs) none calls := by
  refine map_eq_of_forall₂ (answers_forall₂ (R := fun z value => Shows value z ∧ Sound z)
    ?_ hsep ?_)
  · rintro c z value hc ⟨hshows, hsound⟩
    obtain ⟨hreply, hnext⟩ := logHandlerStep_eq limit windowNs hshows hsound hc
    exact ⟨hreply.symm, hnext⟩
  · exact ⟨⟨List.Pairwise.nil, List.Perm.refl _⟩, List.nodup_nil,
      fun _ hm => absurd hm List.not_mem_nil⟩

end

end Resilience.Store
