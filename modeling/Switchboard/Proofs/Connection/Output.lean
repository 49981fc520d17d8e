import Switchboard.Proofs.Connection.Placement

/-!
# What a writer writes

A writer takes the items of its queue one by one and writes each frame to its end before it takes
the next. What it is to write is fixed by the items that have been accepted (`script`): their frames
in order, up to the first order to end the stream and the last frame that comes with it. At any
time, what has been written is the beginning of that (`Wire.starts`), and every step keeps it so
(`Wire.perform`).
-/

namespace Switchboard

/-! ## Beginnings -/

/-- Bytes that begin with others. -/
def StartsWith (whole part : ByteArray) : Prop := ∃ rest, whole = part ++ rest

namespace StartsWith

theorem refl (whole : ByteArray) : StartsWith whole whole := ⟨ByteArray.empty, by simp⟩

theorem append (part rest : ByteArray) : StartsWith (part ++ rest) part := ⟨rest, rfl⟩

theorem trans {a b c : ByteArray} (hab : StartsWith a b) (hbc : StartsWith b c) :
    StartsWith a c := by
  obtain ⟨first, rfl⟩ := hab
  obtain ⟨second, rfl⟩ := hbc
  exact ⟨second ++ first, ByteArray.append_assoc⟩

theorem append_left {a b : ByteArray} (h : StartsWith a b) (front : ByteArray) :
    StartsWith (front ++ a) (front ++ b) := by
  obtain ⟨rest, rfl⟩ := h
  exact ⟨rest, ByteArray.append_assoc.symm⟩

theorem extract (bytes : ByteArray) (limit : Nat) : StartsWith bytes (bytes.extract 0 limit) :=
  ⟨_, (extract_append_extract bytes limit).symm⟩

/-- The shorter of two beginnings is a beginning of the other. -/
theorem of_size_le {whole a b : ByteArray} (ha : StartsWith whole a) (hb : StartsWith whole b)
    (hle : a.size ≤ b.size) : StartsWith b a := by
  obtain ⟨rest, rfl⟩ := ha
  obtain ⟨other, hsame⟩ := hb
  have hfront : (a ++ rest).extract 0 a.size = a := ByteArray.extract_append_eq_left rfl
  rw [hsame, ByteArray.extract_append] at hfront
  have hnone : other.extract (0 - b.size) (a.size - b.size) = ByteArray.empty := by
    rw [ByteArray.extract_eq_empty_iff]
    omega
  rw [hnone, ByteArray.append_empty] at hfront
  rw [← hfront]
  exact extract b a.size

/-- Of two beginnings of the same bytes, one is the beginning of the other. -/
theorem total {whole a b : ByteArray} (ha : StartsWith whole a) (hb : StartsWith whole b) :
    StartsWith b a ∨ StartsWith a b := by
  rcases Nat.le_total a.size b.size with hle | hle
  · exact Or.inl (ha.of_size_le hb hle)
  · exact Or.inr (hb.of_size_le ha hle)

end StartsWith

/-! ## What is to be written -/

/-- Whether an item is a frame, and no order to end the stream. -/
def WriteItem.isFrame : WriteItem → Bool
  | frame _ => true
  | shutdown _ => false

/-- What a writer is to write that is given some items: the frames before the first order to end the
stream, and the last frame that comes with the order. -/
def script : List WriteItem → ByteArray
  | [] => ByteArray.empty
  | .frame bytes :: items => bytes ++ script items
  | .shutdown farewell :: _ => farewell.getD ByteArray.empty

theorem script_append {done : List WriteItem} (hdone : ∀ item ∈ done, item.isFrame = true)
    (items : List WriteItem) : script (done ++ items) = script done ++ script items := by
  induction done with
  | nil => simp [script]
  | cons item done ih =>
      have hrest := ih fun other hother => hdone other (List.mem_cons_of_mem _ hother)
      cases item with
      | frame bytes => rw [List.cons_append, script, script, hrest, ByteArray.append_assoc]
      | shutdown farewell => cases hdone _ List.mem_cons_self

/-- What has been accepted later comes behind what is to be written already. -/
theorem startsWith_script_append (items more : List WriteItem) :
    StartsWith (script (items ++ more)) (script items) := by
  induction items with
  | nil => exact ⟨_, (ByteArray.empty_append).symm⟩
  | cons item items ih =>
      cases item with
      | frame bytes => exact ih.append_left bytes
      | shutdown farewell => exact .refl _

/-- Nothing comes behind an order to end the stream and its last frame. -/
theorem startsWith_script_shutdown (items : List WriteItem) (farewell : Option ByteArray)
    (more : List WriteItem) :
    StartsWith (script items ++ farewell.getD ByteArray.empty)
      (script (items ++ .shutdown farewell :: more)) := by
  induction items with
  | nil =>
      rw [script, ByteArray.empty_append]
      exact .refl _
  | cons item items ih =>
      cases item with
      | frame bytes =>
          rw [List.cons_append, script, script, ByteArray.append_assoc]
          exact ih.append_left bytes
      | shutdown first => exact .append _ _

theorem script_frame (bytes : ByteArray) : script [.frame bytes] = bytes := by simp [script]

namespace Writer

/-- The item that a writer is at. -/
def held : Writer → List WriteItem
  | idle => []
  | writing frame _ => [.frame frame]
  | parting frame _ => [.shutdown (some frame)]
  | ended => []

/-- What a writer has written of the item that it is at. -/
def progress : Writer → ByteArray
  | idle => ByteArray.empty
  | writing frame written => frame.extract 0 written
  | parting frame written => frame.extract 0 written
  | ended => ByteArray.empty

/-- A writer has written no more of a frame than there is. -/
def Within : Writer → Prop
  | idle => True
  | writing frame written => written ≤ frame.size
  | parting frame written => written ≤ frame.size
  | ended => True

/-- What a writer has written of an item is the beginning of what it is to write. -/
theorem startsWith_progress (writer : Writer) (items : List WriteItem) :
    StartsWith (script (writer.held ++ items)) writer.progress := by
  cases writer with
  | idle => exact ⟨_, (ByteArray.empty_append).symm⟩
  | writing frame written => exact (StartsWith.append frame _).trans (.extract frame written)
  | parting frame written => exact .extract frame written
  | ended => exact ⟨_, (ByteArray.empty_append).symm⟩

theorem held_taking {item : WriteItem} (hlive : item ≠ .shutdown none) :
    (taking item).held = [item] ∧ (taking item).progress = ByteArray.empty ∧ (taking item).Within ∧
      taking item ≠ ended := by
  cases item with
  | frame bytes => exact ⟨rfl, ByteArray.extract_eq_empty_iff.2 (by simp), Nat.zero_le _, nofun⟩
  | shutdown farewell =>
      cases farewell with
      | none => exact absurd rfl hlive
      | some bytes => exact ⟨rfl, ByteArray.extract_eq_empty_iff.2 (by simp), Nat.zero_le _, nofun⟩

end Writer

namespace Connection

/-- The bytes that a step gives to the stream. -/
def output (conn : Connection) : Step → ByteArray
  | .write room => (conn.write room).1
  | _ => ByteArray.empty

/-- What has been written behind a greeting, when `accepted` are the items that have come into the
write queue. -/
inductive Wire (hello : ByteArray) (written : ByteArray) (accepted : List WriteItem)
    (conn : Connection) : Prop where
  /-- The frames of some items have been written, the writer is at the next, and the others are in
  the queue. -/
  | live (done : List WriteItem) (hdone : ∀ item ∈ done, item.isFrame = true)
      (hopen : conn.queue.isOpen = true) (hwriter : conn.writer ≠ .ended)
      (hwithin : conn.writer.Within)
      (haccepted : accepted = done ++ (conn.writer.held ++ conn.queue.items))
      (hwritten : written = hello ++ (script done ++ conn.writer.progress))
  /-- The writer has ended. -/
  | ceased (hclosed : conn.queue.isOpen = false) (hended : conn.writer = .ended)
      (hscript : StartsWith (hello ++ script accepted) written)

theorem wire_new (hello : ByteArray) (options : ConnectionOptions) (cluster connectionId : String)
    (decoder : Decoder) : Wire hello hello [] (new options cluster connectionId decoder) :=
  .live [] (fun _ h => nomatch h) rfl nofun trivial rfl
    (by simp [script, Writer.progress, Connection.new])

namespace Wire

variable {hello written : ByteArray} {accepted : List WriteItem} {conn : Connection}

/-- What has been written is the beginning of what is to be written. -/
theorem starts (h : Wire hello written accepted conn) :
    StartsWith (hello ++ script accepted) written := by
  cases h with
  | live done hdone hopen hwriter hwithin haccepted hwritten =>
      rw [haccepted, script_append hdone, hwritten]
      exact ((conn.writer.startsWith_progress _).append_left _).append_left _
  | ceased hclosed hended hscript => exact hscript

/-- Items that come in are behind all others. -/
theorem starts_append (h : Wire hello written accepted conn) (items : List WriteItem) :
    StartsWith (hello ++ script (accepted ++ items)) written :=
  ((startsWith_script_append accepted items).append_left hello).trans h.starts

/-- A frame that is written on to `next` has been written that far. -/
theorem extract_append_extract_of_le {frame : ByteArray} {count next : Nat} (hle : count ≤ next) :
    frame.extract 0 count ++ frame.extract count next = frame.extract 0 next :=
  (ByteArray.extract_eq_extract_append_extract count (Nat.zero_le _) hle).symm

/-- What the transport accepts of a frame comes behind what it has accepted before. -/
theorem write_on {before frame : ByteArray} {count : Nat} (hcount : count ≤ frame.size) (room : Nat)
    (hwritten : written = hello ++ (before ++ frame.extract 0 count)) :
    written ++ frame.extract count (min frame.size (count + room)) =
      hello ++ (before ++ frame.extract 0 (min frame.size (count + room))) := by
  have hle : count ≤ min frame.size (count + room) := Nat.le_min.2 ⟨hcount, Nat.le_add_right _ _⟩
  rw [hwritten, ByteArray.append_assoc, ByteArray.append_assoc, extract_append_extract_of_le hle]

theorem admitted_write (conn : Connection) (room : Nat) : conn.admitted (.write room) = [] := by
  have hafter : (∃ writer, conn.perform (.write room) = { conn with writer }) ∨
      conn.perform (.write room) = conn.endWriter := write_effect conn room
  rcases hafter with ⟨writer, hafter⟩ | hafter
  · exact admitted_of_items rfl (by rw [hafter, List.append_nil])
  · exact admitted_of_closed (by rw [hafter]; rfl)

/-- The writer writes on. -/
theorem write (h : Wire hello written accepted conn) (room : Nat) :
    Wire hello (written ++ (conn.write room).1) accepted (conn.write room).2 := by
  cases h with
  | ceased hclosed hended hscript =>
      have hnothing : conn.write room = (ByteArray.empty, conn) := by
        unfold Connection.write
        rw [hended]
      rw [hnothing, ByteArray.append_empty]
      exact .ceased hclosed hended hscript
  | live done hdone hopen hlive hwithin haccepted hwritten =>
      cases hwriter : conn.writer with
      | ended => exact absurd hwriter hlive
      | idle =>
          have hnothing : conn.write room = (ByteArray.empty, conn) := by
            unfold Connection.write
            rw [hwriter]
          rw [hnothing, ByteArray.append_empty]
          exact .live done hdone hopen hlive hwithin haccepted hwritten
      | writing frame count =>
          rw [hwriter] at hwithin haccepted hwritten
          unfold Connection.write
          simp only [hwriter]
          rw [write_on hwithin room hwritten]
          by_cases hend : min frame.size (count + room) = frame.size
          · -- The frame has been written whole, and the writer waits for the next.
            rw [if_pos hend, hend, ByteArray.extract_zero_size]
            have hframes : ∀ item ∈ done ++ [.frame frame], item.isFrame = true := by
              intro item hitem
              rcases List.mem_append.1 hitem with hold | hlast
              · exact hdone item hold
              · rw [List.mem_singleton.1 hlast]
                rfl
            refine .live (done ++ [.frame frame]) hframes hopen nofun trivial ?_ ?_
            · rw [haccepted, List.append_assoc]
              rfl
            · rw [script_append hdone, script_frame, Writer.progress, ByteArray.append_empty]
          · rw [if_neg hend]
            exact .live done hdone hopen nofun (Nat.min_le_left _ _) haccepted rfl
      | parting frame count =>
          rw [hwriter] at hwithin haccepted hwritten
          unfold Connection.write
          simp only [hwriter]
          rw [write_on hwithin room hwritten]
          by_cases hend : min frame.size (count + room) = frame.size
          · -- The last frame has been written whole, and the writer ends.
            rw [if_pos hend, hend, ByteArray.extract_zero_size]
            refine .ceased rfl rfl ?_
            rw [haccepted, script_append hdone]
            exact .refl _
          · rw [if_neg hend]
            exact .live done hdone hopen nofun (Nat.min_le_left _ _) haccepted rfl

/-- The writer goes on as it was, and some items come in at the end of the queue. -/
theorem goes (h : Wire hello written accepted conn) {after : Connection} {items : List WriteItem}
    (hwriter : after.writer = conn.writer) (hopen : after.queue.isOpen = conn.queue.isOpen)
    (hitems : after.queue.items = conn.queue.items ++ items) :
    Wire hello written (accepted ++ items) after := by
  cases h with
  | live done hdone hopened hlive hwithin haccepted hwritten =>
      refine .live done hdone (hopen.trans hopened) ?_ ?_ ?_ ?_
      · rwa [hwriter]
      · rwa [hwriter]
      · rw [hwriter, hitems, haccepted, List.append_assoc, List.append_assoc]
      · rwa [hwriter]
  | ceased hclosed hended hscript =>
      refine .ceased (hopen.trans hclosed) (hwriter.trans hended) ?_
      exact starts_append (.ceased hclosed hended hscript) items

/-- The first item goes from the queue to the writer, and the first in line moves up. -/
theorem take (h : Wire hello written accepted conn) {after : Connection} {item : WriteItem}
    (hidle : conn.writer = .idle) (hpop : conn.queue.pop = some (item, after.queue))
    (hwriter : after.writer = .taking item) (hitem : item ≠ .shutdown none) :
    Wire hello written (accepted ++ conn.queue.rising) after := by
  obtain ⟨rest, hbefore, hafter, -⟩ := WriteQueue.items_of_pop hpop
  obtain ⟨hheld, hprogress, hwithin, hlive⟩ := Writer.held_taking hitem
  cases h with
  | live done hdone hopened _ _ haccepted hwritten =>
      rw [hidle] at haccepted hwritten
      refine .live done hdone ((WriteQueue.isOpen_of_pop hpop).trans hopened) ?_ ?_ ?_ ?_
      · rwa [hwriter]
      · rwa [hwriter]
      · rw [hwriter, hheld, hafter, haccepted, hbefore, List.append_assoc]
        rfl
      · rw [hwriter, hprogress]
        exact hwritten
  | ceased hclosed hended hscript =>
      rw [hidle] at hended
      cases hended

/-- Every step keeps what has been written at the beginning of what is to be written. -/
theorem perform (h : Wire hello written accepted conn) (step : Step) :
    Wire hello (written ++ conn.output step) (accepted ++ conn.admitted step)
      (conn.perform step) := by
  by_cases hwrite : ∃ room, step = .write room
  · obtain ⟨room, rfl⟩ := hwrite
    rw [admitted_write, List.append_nil]
    exact h.write room
  · have hnothing : conn.output step = ByteArray.empty := by
      cases step with
      | write room => exact absurd ⟨room, rfl⟩ hwrite
      | _ => rfl
    rw [hnothing, ByteArray.append_empty]
    have hstarts := h.starts_append (conn.admitted step)
    have htraffic := perform_traffic conn step
    generalize conn.admitted step = items at htraffic hstarts ⊢
    generalize conn.perform step = after at htraffic ⊢
    cases htraffic with
    | still hcalls hqueue hwriter =>
        exact h.goes (hwriter.resolve_left hwrite) (by rw [hqueue])
          (by rw [hqueue, List.append_nil])
    | told farewell hfarewell hroom hcalls hqueue hwriter =>
        exact h.goes hwriter (by rw [hqueue, WriteQueue.isOpen_offer])
          (by rw [hqueue, WriteQueue.items_offer hroom])
    | closed hcalls hqueue hwriter => exact .ceased (by rw [hqueue]; rfl) hwriter hstarts
    | dropped call hcall hcalls hqueue hwriter =>
        exact h.goes hwriter (by rw [hqueue]; rfl) (by rw [hqueue, List.append_nil]; rfl)
    | began call message hfits hasked hid hnumber hnext hstep hcalls hqueue hwriter =>
        exact h.goes hwriter (by rw [hqueue, WriteQueue.isOpen_push])
          (by rw [hqueue, WriteQueue.items_push])
    | answered message hfits hanswer hcalls hqueue hwriter =>
        exact h.goes hwriter (by rw [hqueue, WriteQueue.isOpen_push])
          (by rw [hqueue, WriteQueue.items_push])
    | took item hidle hpop hcalls hwriter hitem => exact h.take hidle hpop hwriter hitem
    | ended next hidle hpop hcalls hqueue hwriter =>
        exact .ceased (by rw [hqueue]; rfl) hwriter hstarts

/-- A writer whose queue is closed writes nothing. -/
theorem output_of_closed (h : Wire hello written accepted conn)
    (hclosed : conn.queue.isOpen = false)
    (step : Step) : conn.output step = ByteArray.empty := by
  cases h with
  | live done hdone hopen hwriter hwithin haccepted hwritten =>
      rw [hclosed] at hopen
      cases hopen
  | ceased _ hended _ =>
      cases step with
      | write room => simp only [output, Connection.write, hended]
      | _ => rfl

end Wire

/-- A queue that is closed stays closed. -/
theorem closed_perform {conn : Connection} (hclosed : conn.queue.isOpen = false) (step : Step) :
    (conn.perform step).queue.isOpen = false := by
  have htraffic := perform_traffic conn step
  generalize conn.admitted step = items at htraffic
  generalize conn.perform step = after at htraffic ⊢
  cases htraffic with
  | still hcalls hqueue hwriter => rwa [hqueue]
  | told farewell hfarewell hroom hcalls hqueue hwriter => rwa [hqueue, WriteQueue.isOpen_offer]
  | closed hcalls hqueue hwriter =>
      rw [hqueue]
      rfl
  | dropped call hcall hcalls hqueue hwriter =>
      rw [hqueue]
      exact hclosed
  | began call message hfits hasked hid hnumber hnext hstep hcalls hqueue hwriter =>
      rwa [hqueue, WriteQueue.isOpen_push]
  | answered message hfits hanswer hcalls hqueue hwriter => rwa [hqueue, WriteQueue.isOpen_push]
  | took item hidle hpop hcalls hwriter hlive => rwa [WriteQueue.isOpen_of_pop hpop]
  | ended next hidle hpop hcalls hqueue hwriter =>
      rw [hqueue]
      rfl

end Connection

end Switchboard
