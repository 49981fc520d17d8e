import Switchboard.Client.WriteQueue

/-!
# Frames on their way to a writer

The frames of a write queue in the order in which the writer will get them. As long as nobody waits
in line while there is room (`InTurn`), a frame that is pushed comes last (`frames_push`), and what
the writer takes is the first (`frames_of_pop`). Those who end only take frames out of the line,
close the queue, or ask for its end (`Thins`).
-/

namespace Switchboard

/-- The frame of an item, if it has one. -/
def WriteItem.frame? : WriteItem → Option ByteArray
  | .frame bytes => some bytes
  | .shutdown farewell => farewell

namespace WriteQueue

/-- The frames that wait, in the order in which the writer will get them. -/
def frames (queue : WriteQueue) : List ByteArray :=
  queue.items.filterMap WriteItem.frame? ++ queue.line.map Waiter.frame

/-- Nobody waits in line while there is room. -/
def InTurn (queue : WriteQueue) : Prop := queue.hasRoom = true → queue.line = []

/-! ## Coming and going -/

section Operations

variable {queue : WriteQueue}

theorem hasRoom_congr {other : WriteQueue} (hopen : other.isOpen = queue.isOpen)
    (hcapacity : other.capacity = queue.capacity)
    (hlength : other.items.length = queue.items.length) : other.hasRoom = queue.hasRoom := by
  unfold hasRoom
  rw [hopen, hcapacity, hlength]

theorem inTurn_push (h : queue.InTurn) (waiter : Waiter) : (queue.push waiter).InTurn := by
  unfold push
  by_cases hroom : queue.hasRoom = true
  · rw [if_pos hroom]
    exact fun _ => h hroom
  · rw [if_neg hroom]
    exact fun hroom' => absurd hroom' hroom

/-- A frame that is pushed comes last. -/
theorem frames_push (h : queue.InTurn) (waiter : Waiter) :
    (queue.push waiter).frames = queue.frames ++ [waiter.frame] := by
  unfold push frames
  by_cases hroom : queue.hasRoom = true
  · rw [if_pos hroom, h hroom, List.filterMap_append, List.map_nil, List.append_nil,
      List.append_nil]
    rfl
  · rw [if_neg hroom, List.map_append, List.append_assoc]
    rfl

theorem isOpen_push (waiter : Waiter) : (queue.push waiter).isOpen = queue.isOpen := by
  unfold push
  split <;> rfl

theorem inTurn_offer (h : queue.InTurn) (item : WriteItem) : (queue.offer item).InTurn := by
  unfold offer
  by_cases hroom : queue.hasRoom = true
  · rw [if_pos hroom]
    exact fun _ => h hroom
  · rw [if_neg hroom]
    exact h

theorem isOpen_offer (item : WriteItem) : (queue.offer item).isOpen = queue.isOpen := by
  unfold offer
  split <;> rfl

theorem line_offer (queue : WriteQueue) (item : WriteItem) :
    (queue.offer item).line = queue.line := by
  unfold offer
  split <;> rfl

/-- An item that is offered is taken as the last, or not at all. -/
theorem frames_offer (h : queue.InTurn) (item : WriteItem) :
    (queue.offer item).frames = queue.frames ∨
      (queue.offer item).frames = queue.frames ++ item.frame?.toList := by
  unfold offer
  by_cases hroom : queue.hasRoom = true
  · right
    unfold frames
    rw [if_pos hroom, h hroom, List.filterMap_append, List.map_nil, List.append_nil,
      List.append_nil]
    cases hframe : item.frame? with
    | none => rw [List.filterMap_cons_none hframe]; rfl
    | some bytes => rw [List.filterMap_cons_some hframe]; rfl
  · left
    rw [if_neg hroom]

theorem inTurn_of_pop (h : queue.InTurn) {item : WriteItem} {next : WriteQueue}
    (hpop : queue.pop = some (item, next)) : next.InTurn := by
  unfold pop at hpop
  split at hpop
  · cases hpop
  · rename_i hline
    cases hpop
    exact fun _ => hline
  · rename_i first line hitems hline
    cases hpop
    intro hroom
    rw [h] at hline
    · cases hline
    · rw [← hroom]
      refine hasRoom_congr rfl rfl ?_
      rw [hitems, List.length_append, List.length_cons, List.length_singleton]

/-- What the writer takes is the first. -/
theorem frames_of_pop {item : WriteItem} {next : WriteQueue}
    (hpop : queue.pop = some (item, next)) :
    queue.frames = item.frame?.toList ++ next.frames := by
  have hitem : ∀ items, (item :: items).filterMap WriteItem.frame? =
      item.frame?.toList ++ items.filterMap WriteItem.frame? := by
    intro items
    cases hframe : item.frame? with
    | none => rw [List.filterMap_cons_none hframe]; rfl
    | some bytes => rw [List.filterMap_cons_some hframe]; rfl
  unfold pop at hpop
  split at hpop
  · cases hpop
  · rename_i hitems hline
    cases hpop
    unfold frames
    rw [hitems, hline, hitem, List.append_assoc]
  · rename_i first line hitems hline
    cases hpop
    unfold frames
    rw [hitems, hline, hitem, List.filterMap_append, List.append_assoc, List.append_assoc]
    rfl

theorem isOpen_of_pop {item : WriteItem} {next : WriteQueue}
    (hpop : queue.pop = some (item, next)) : next.isOpen = queue.isOpen := by
  unfold pop at hpop
  split at hpop
  · cases hpop
  · cases hpop
    rfl
  · cases hpop
    rfl

theorem line_of_pop {item : WriteItem} {next : WriteQueue}
    (hpop : queue.pop = some (item, next)) : next.line.Sublist queue.line := by
  unfold pop at hpop
  split at hpop
  · cases hpop
  · cases hpop
    exact List.Sublist.refl _
  · rename_i first line hitems hline
    cases hpop
    rw [hline]
    exact List.sublist_cons_self first line

/-- While the queue is open and something waits, there is something for the writer. -/
theorem exists_pop (h : queue.InTurn) (hopen : queue.isOpen = true) (hcapacity : 0 < queue.capacity)
    (hframes : queue.frames ≠ []) : ∃ item next, queue.pop = some (item, next) := by
  unfold pop
  split
  · rename_i hitems
    have hroom : queue.hasRoom = true := by
      unfold hasRoom
      rw [hopen, hitems, Bool.true_and, decide_eq_true_eq]
      exact hcapacity
    refine absurd ?_ hframes
    unfold frames
    rw [hitems, h hroom]
    rfl
  · exact ⟨_, _, rfl⟩
  · exact ⟨_, _, rfl⟩

end Operations

/-! ## The end -/

/-- What is done to a queue by callers that leave and by those who end the connection: frames of
calls leave the line, the end is asked for, the queue is closed. -/
inductive Thins (queue : WriteQueue) : WriteQueue → Prop where
  | refl : Thins queue queue
  | withdraw {next : WriteQueue} (call : CallKey) (h : Thins queue next) :
      Thins queue (next.withdraw call)
  | shutdown {next : WriteQueue} (h : Thins queue next) :
      Thins queue (next.offer (.shutdown none))
  | close {next : WriteQueue} (h : Thins queue next) : Thins queue next.close

namespace Thins

variable {queue next : WriteQueue}

theorem trans {last : WriteQueue} (h : queue.Thins next) (h' : next.Thins last) :
    queue.Thins last := by
  induction h' with
  | refl => exact h
  | withdraw call _ ih => exact .withdraw call ih
  | shutdown _ ih => exact .shutdown ih
  | close _ ih => exact .close ih

theorem inTurn (h : queue.Thins next) (hturn : queue.InTurn) : next.InTurn := by
  induction h with
  | refl => exact hturn
  | withdraw call _ ih =>
      intro hroom
      show List.filter _ _ = []
      rw [ih hroom, List.filter_nil]
  | shutdown _ ih => exact inTurn_offer ih _
  | close _ ih => exact fun hroom => by cases hroom

/-- No frame comes in. -/
theorem frames (h : queue.Thins next) (hturn : queue.InTurn) :
    next.frames.Sublist queue.frames := by
  induction h with
  | refl => exact List.Sublist.refl _
  | withdraw call _ ih =>
      refine List.Sublist.trans ?_ ih
      exact (List.Sublist.refl _).append (List.filter_sublist.map _)
  | @shutdown middle hmiddle ih =>
      rcases frames_offer (hmiddle.inTurn hturn) (.shutdown none) with hsame | hsame
      · rwa [hsame]
      · rw [hsame]
        show (middle.frames ++ []).Sublist queue.frames
        rwa [List.append_nil]
  | close _ ih =>
      refine List.Sublist.trans ?_ ih
      exact List.sublist_append_right _ _

theorem isOpen (h : queue.Thins next) (hopen : next.isOpen = true) : queue.isOpen = true := by
  induction h with
  | refl => exact hopen
  | withdraw call _ ih => exact ih hopen
  | shutdown _ ih =>
      rw [isOpen_offer] at hopen
      exact ih hopen
  | close _ ih => cases hopen

/-- Who is left in line has been there before. -/
theorem line (h : queue.Thins next) : next.line.Sublist queue.line := by
  induction h with
  | refl => exact List.Sublist.refl _
  | withdraw call _ ih => exact List.filter_sublist.trans ih
  | shutdown _ ih => rwa [line_offer]
  | close _ ih => exact ih

/-- While the queue stays open, only frames of calls go. -/
theorem filterMap_frames {α : Type} {f : ByteArray → Option α} (h : queue.Thins next)
    (hturn : queue.InTurn) (hopen : next.isOpen = true)
    (hcalls : ∀ waiter ∈ queue.line, waiter.call ≠ none → f waiter.frame = none) :
    next.frames.filterMap f = queue.frames.filterMap f := by
  induction h with
  | refl => rfl
  | @withdraw middle call hmiddle ih =>
      rw [← ih hopen]
      -- Whoever leaves the line is a call, whose frame is passed over anyway.
      have hkept : ∀ line : List Waiter,
          (∀ waiter ∈ line, waiter.call ≠ none → f waiter.frame = none) →
            ((line.filter fun waiter => waiter.call ≠ some call).map Waiter.frame).filterMap f =
              (line.map Waiter.frame).filterMap f := by
        intro line hline
        induction line with
        | nil => rfl
        | cons waiter line ihline =>
            have hrest := ihline fun other hother => hline other (List.mem_cons_of_mem _ hother)
            by_cases hcall : waiter.call = some call
            · have hgone : f waiter.frame = none :=
                hline waiter List.mem_cons_self (by rw [hcall]; exact Option.some_ne_none call)
              rw [List.filter_cons_of_neg (by simpa using hcall), hrest, List.map_cons,
                List.filterMap_cons_none hgone]
            · rw [List.filter_cons_of_pos (by simpa using hcall), List.map_cons, List.map_cons,
                List.filterMap_cons, List.filterMap_cons, hrest]
      unfold WriteQueue.frames
      rw [List.filterMap_append, List.filterMap_append]
      congr 1
      exact hkept _ fun waiter hwaiter => hcalls waiter (hmiddle.line.subset hwaiter)
  | @shutdown middle hmiddle ih =>
      rw [isOpen_offer] at hopen
      rw [← ih hopen]
      rcases frames_offer (hmiddle.inTurn hturn) (.shutdown none) with hsame | hsame
      · rw [hsame]
      · rw [hsame]
        show (middle.frames ++ []).filterMap f = _
        rw [List.append_nil]
  | close _ ih => cases hopen

end Thins

end WriteQueue

end Switchboard
