import Sim6809.Proofs.Board.Replay

/-!
Loading is all or nothing. An image that cannot be read, has no bytes or has too many leaves a machine
as it was. Any other stands at the top of both images afterwards, over zeros, and the machine starts
from the vector in it.
-/
namespace Sim6809

/-- Where an image comes from: its bytes themselves, or a file that may have a map beside it. -/
inductive ImageSource
  | bytes (image : Array UInt8)
  | file (files : Files) (path : String)

namespace ImageSource

def image : ImageSource → Except ReadError (Array UInt8)
  | bytes image => .ok image
  | file files path => files.readBytes path

/-- The symbols after a load. Bytes come without any and leave the old ones; those of a file are in its
map, and there are none if the map is missing or cannot be read. -/
def symbols (old : SymbolTable) : ImageSource → SymbolTable
  | bytes _ => old
  | file files path =>
    match files.readText (Path.withExtension path "map") with
    | .ok text => .parse text.toList
    | .error _ => .empty

/-- Why a load from a source is refused. -/
inductive Refused (source : ImageSource) : LoadError → Prop
  | unreadable {reason : ReadError} :
      source.image = .error reason → source.Refused (.unreadable reason)
  | empty {image : Array UInt8} :
      source.image = .ok image → image.size = 0 → source.Refused .emptyImage
  | tooLarge {image : Array UInt8} :
      source.image = .ok image → Memory.size < image.size →
      source.Refused (.imageTooLarge image.size)

end ImageSource

/-- The result of a load: it fails if the source is refused, and for that reason, and leaves the machine
as wanted for a failure; else it leaves it as wanted for a success. -/
structure AllOrNothing {α : Type} (source : ImageSource) (kept loaded : α → Prop)
    (result : Except LoadError Unit × α) : Prop where
  refuses : ∀ e, result.1 = .error e ↔ source.Refused e
  keeps : ∀ e, result.1 = .error e → kept result.2
  loads : result.1 = .ok () → loaded result.2

variable {source : ImageSource} {image : Array UInt8} {e : LoadError}

/-- A processor that was reset with an image at the top of its memory and zeros below. -/
structure Core.StartsWith (image : Array UInt8) (c : Core) : Prop where
  above : ∀ address : UInt16, Memory.size - image.size ≤ address.toNat →
    image[address.toNat - (Memory.size - image.size)]? = some (c.bus.memory.read address)
  below : ∀ address : UInt16, address.toNat < Memory.size - image.size →
    c.bus.memory.read address = 0
  loaded : c.bus.loaded = c.bus.memory
  cpu : c.cpu = .afterReset (c.bus.memory.readWord Event.reset.vector)
  latches : c.cpu.latches = .clear
  requests : c.bus.requests = []

namespace Monitor

/-- A load from a source, and the machine after it. -/
def loadFrom (m : Monitor) : ImageSource → Except LoadError Unit × Monitor
  | .bytes image => m.load image
  | .file files path => m.loadFile files path

/-- A machine after it has loaded an image from a source. -/
structure LoadedFrom (m : Monitor) (source : ImageSource) (image : Array UInt8) (n : Monitor) :
    Prop where
  core : n.core.StartsWith image
  symbols : n.symbols = source.symbols m.symbols
  window : n.window = []

end Monitor

namespace Board

def loadFrom (b : Board) : ImageSource → Except LoadError Unit × Board
  | .bytes image => b.load image
  | .file files path => b.loadFile files path

/-- The devices of a loaded board start anew, too. -/
structure LoadedFrom (b : Board) (source : ImageSource) (image : Array UInt8) (d : Board) :
    Prop where
  monitor : b.monitor.LoadedFrom source image d.monitor
  console : d.bus.console = #[]
  timer : d.timer = b.timer.reset
  ticking : d.ticking = b.ticking

end Board

/-! ### The image -/

theorem Board.startsWith_imageMemory (nonempty : image.size ≠ 0)
    (small : ¬ Memory.size < image.size) {c : Core} (memory : c.bus.memory = imageMemory image)
    (loaded : c.bus.loaded = imageMemory image)
    (cpu : c.cpu = .afterReset ((imageMemory image).readWord Event.reset.vector))
    (requests : c.bus.requests = []) : c.StartsWith image := by
  have size : Memory.size = 65536 := rfl
  have start : (imageStart image).toNat = Memory.size - image.size := by
    rw [imageStart, UInt16.toNat_ofNat', Nat.mod_eq_of_lt (by omega)]
  have read (address : UInt16) : c.bus.memory.read address =
      if address.toNat < Memory.size - image.size then 0
      else image.getD (address.toNat - (Memory.size - image.size)) 0 := by
    rw [memory, imageMemory, Bus.loadImage, Memory.read_ofFn, start]
    simp only [UInt16.lt_iff_toNat_lt, start]
  refine ⟨?_, ?_, loaded.trans memory.symm, memory ▸ cpu, by rw [cpu]; rfl, requests⟩
  · intro address within
    have inside : address.toNat - (Memory.size - image.size) < image.size := by
      have := address.toNat_lt
      omega
    rw [read, if_neg (Nat.not_lt.mpr within)]
    simp [inside]
  · intro address before
    rw [read, if_pos before]

namespace ImageSource

theorem refused_iff_of_error {reason : ReadError} (unread : source.image = .error reason) :
    source.Refused e ↔ e = .unreadable reason := by
  constructor
  · intro refused
    cases refused with
    | unreadable again =>
        cases unread.symm.trans again
        rfl
    | empty read _ => cases unread.symm.trans read
    | tooLarge read _ => cases unread.symm.trans read
  · rintro rfl
    exact .unreadable unread

theorem refused_iff_of_ok (read : source.image = .ok image) : source.Refused e ↔
    (image.size = 0 ∧ e = .emptyImage) ∨
      (Memory.size < image.size ∧ e = .imageTooLarge image.size) := by
  constructor
  · intro refused
    cases refused with
    | unreadable unread => cases read.symm.trans unread
    | empty again empty =>
        cases read.symm.trans again
        exact .inl ⟨empty, rfl⟩
    | tooLarge again large =>
        cases read.symm.trans again
        exact .inr ⟨large, rfl⟩
  · rintro (⟨empty, rfl⟩ | ⟨large, rfl⟩)
    · exact .empty read empty
    · exact .tooLarge read large

/-- A load is refused for one reason only, as an image without bytes is not too large. -/
theorem Refused.unique {d : LoadError} (first : source.Refused d) (second : source.Refused e) :
    d = e := by
  cases read : source.image with
  | error reason =>
      rw [refused_iff_of_error read] at first second
      exact first.trans second.symm
  | ok image =>
      rw [refused_iff_of_ok read] at first second
      rcases first with ⟨empty, rfl⟩ | ⟨large, rfl⟩ <;>
        rcases second with ⟨empty', rfl⟩ | ⟨large', rfl⟩
      · rfl
      · omega
      · omega
      · rfl

end ImageSource

namespace AllOrNothing

variable {α : Type} {kept loaded : α → Prop} {machine : α}

theorem of_refused (refused : source.Refused e) (same : kept machine) :
    AllOrNothing source kept loaded (.error e, machine) := by
  refine ⟨fun d => ?_, fun _ _ => same, ?_⟩
  · constructor
    · rintro ⟨⟩
      exact refused
    · intro again
      rw [refused.unique again]
  · rintro ⟨⟩

theorem of_accepted (accepted : ∀ e, ¬ source.Refused e) (placed : loaded machine) :
    AllOrNothing source kept loaded (.ok (), machine) := by
  refine ⟨fun e => ?_, ?_, fun _ => placed⟩
  · constructor
    · rintro ⟨⟩
    · exact fun refused => absurd refused (accepted e)
  · rintro e ⟨⟩

end AllOrNothing

/-! ### The monitor -/

namespace Monitor

variable {m n : Monitor}

/-- A reset brings back a memory that was put in place of both images. -/
theorem reset_of_replaced (m : Monitor) (memory : Memory) (text : String) :
    let n := ((m.setBus { m.bus with memory, loaded := memory }).addRecord .debug text).reset
    n.symbols = m.symbols ∧ n.window = [] ∧ (m.bus.readHandlers = [] →
      n.bus.memory = memory ∧ n.bus.loaded = memory ∧
      n.cpu = .afterReset (memory.readWord Event.reset.vector) ∧ n.bus.requests = []) := by
  refine ⟨rfl, rfl, ?_⟩
  intro silent
  have reset := Core.reset_of_silent (c := { m.core with
    bus := { (m.bus.addRecord .debug text) with memory, loaded := memory, requests := [] } }) silent
  exact ⟨congrArg (·.bus.memory) reset, congrArg (·.bus.loaded) reset, congrArg Core.cpu reset,
    congrArg (·.bus.requests) reset⟩

/-- What a load of bytes does: it refuses them, or places them and resets. -/
theorem load_cases (m : Monitor) (image : Array UInt8) :
    (∃ e, (ImageSource.bytes image).Refused e ∧ m.load image = (.error e, m)) ∨
    ∃ n, m.load image = (.ok (), n) ∧ (∀ e, ¬ (ImageSource.bytes image).Refused e) ∧
      n.symbols = m.symbols ∧ n.window = [] ∧
      (m.bus.readHandlers = [] → n.core.StartsWith image) := by
  unfold load
  by_cases empty : image.size = 0
  · exact .inl ⟨.emptyImage, .empty rfl empty, by rw [if_pos empty]⟩
  · by_cases large : Memory.size < image.size
    · exact .inl ⟨.imageTooLarge image.size, .tooLarge rfl large, by rw [if_neg empty, if_pos large]⟩
    · obtain ⟨symbols, window, core⟩ := m.reset_of_replaced (Board.imageMemory image)
        ("loaded " ++ toString image.size ++ " bytes at $" ++ Hex.word (Board.imageStart image))
      refine .inr ⟨_, by rw [if_neg empty, if_neg large]; rfl, ?_, symbols, window, ?_⟩
      · intro e refused
        rcases (ImageSource.refused_iff_of_ok rfl).mp refused with ⟨none, _⟩ | ⟨beyond, _⟩
        · exact empty none
        · exact large beyond
      · intro silent
        obtain ⟨memory, loaded, cpu, requests⟩ := core silent
        exact Board.startsWith_imageMemory empty large memory loaded cpu requests

theorem readSymbols_eq (m : Monitor) (files : Files) (path : String) :
    (readSymbols files (Path.withExtension path "map")).1 =
      (ImageSource.file files path).symbols m.symbols := by
  dsimp only [readSymbols, ImageSource.symbols]
  cases files.readText (Path.withExtension path "map") with
  | ok text => rfl
  | error reason => cases reason <;> rfl

/-- A load is refused and leaves nothing but records, or it is not and places the image. -/
theorem loadFrom_cases (m : Monitor) (source : ImageSource) :
    (∃ e records, source.Refused e ∧ m.loadFrom source = (.error e, m.addRecords records)) ∨
    ∃ n, m.loadFrom source = (.ok (), n) ∧ (∀ e, ¬ source.Refused e) ∧
      (m.bus.readHandlers = [] →
        ∃ image, source.image = .ok image ∧ m.LoadedFrom source image n) := by
  cases source with
  | bytes image =>
      rcases m.load_cases image with ⟨e, refused, result⟩ | ⟨n, result, accepted, symbols, window, core⟩
      · exact .inl ⟨e, [], refused, result⟩
      · refine .inr ⟨n, result, accepted, ?_⟩
        intro silent
        exact ⟨image, rfl, core silent, symbols, window⟩
  | file files path =>
      cases read : files.readBytes path with
      | error reason =>
          exact .inl ⟨.unreadable reason, [], .unreadable read, by rw [loadFrom, loadFile, read]; rfl⟩
      | ok image =>
          have same (e : LoadError) :
              (ImageSource.file files path).Refused e ↔ (ImageSource.bytes image).Refused e :=
            (ImageSource.refused_iff_of_ok
              (show (ImageSource.file files path).image = _ from read)).trans
              (ImageSource.refused_iff_of_ok rfl).symm
          have table := m.readSymbols_eq files path
          rw [loadFrom, loadFile, read]
          dsimp only
          revert table
          rcases readSymbols files (Path.withExtension path "map") with ⟨symbols, records⟩
          intro table
          rcases (m.addRecords records).load_cases image with
            ⟨e, refused, result⟩ | ⟨n, result, accepted, _, _, core⟩
          · exact .inl ⟨e, records, (same e).mpr refused, by dsimp only; rw [result]⟩
          · refine .inr ⟨n.setSymbols symbols, by dsimp only; rw [result],
              fun e => mt (same e).mp (accepted e), ?_⟩
            intro silent
            exact ⟨image, read, core silent, table, rfl⟩

end Monitor

/-! ### The board -/

namespace Board

variable {b : Board} {m : Monitor}

/-- The board with further records in its log. -/
def addRecords (b : Board) (records : List Record) : Board :=
  b.setMonitor (b.monitor.addRecords records)

theorem loadFrom_of_error (refused : b.monitor.loadFrom source = (.error e, m)) :
    b.loadFrom source = (.error e, b.setMonitor m) := by
  cases source with
  | bytes image =>
      dsimp only [Monitor.loadFrom] at refused
      rw [loadFrom, load, refused]
  | file files path =>
      dsimp only [Monitor.loadFrom] at refused
      rw [loadFrom, loadFile, refused]

/-- Once the monitor has loaded, the devices are reset. -/
theorem loadFrom_of_ok (accepted : b.monitor.loadFrom source = (.ok (), m)) :
    ∃ records, b.loadFrom source = (.ok (), (b.setMonitor m).resetDevices.addRecords records) := by
  cases source with
  | bytes image =>
      dsimp only [Monitor.loadFrom] at accepted
      rw [loadFrom, load, accepted]
      exact ⟨[], rfl⟩
  | file files path =>
      dsimp only [Monitor.loadFrom] at accepted
      rw [loadFrom, loadFile, accepted]
      exact ⟨[⟨.info, _⟩], rfl⟩

theorem loadedFrom_resetDevices {image : Array UInt8} (loaded : b.monitor.LoadedFrom source image m)
    (records : List Record) :
    b.LoadedFrom source image ((b.setMonitor m).resetDevices.addRecords records) := by
  obtain ⟨⟨above, below, same, cpu, latches, requests⟩, symbols, window⟩ := loaded
  exact ⟨⟨⟨above, below, same, cpu, latches, requests⟩, symbols, window⟩, rfl, rfl, rfl⟩

/-- A load is refused if the image cannot be read, has no bytes or has too many, and then the machine is
as it was but for records of the attempt. Any other image is placed, the machine starts from it, and
the symbols are those that come with it. This holds of a monitor by itself and of a board. -/
theorem loads_or_changes_nothing (source : ImageSource) :
    (∀ m : Monitor, AllOrNothing source (fun n => ∃ records, n = m.addRecords records)
      (fun n => m.bus.readHandlers = [] →
        ∃ image, source.image = .ok image ∧ m.LoadedFrom source image n) (m.loadFrom source)) ∧
    ∀ b : Board, AllOrNothing source (fun d => ∃ records, d = b.addRecords records)
      (fun d => b.bus.readHandlers = [] →
        ∃ image, source.image = .ok image ∧ b.LoadedFrom source image d) (b.loadFrom source) := by
  constructor
  · intro m
    rcases m.loadFrom_cases source with ⟨e, records, refused, result⟩ | ⟨n, result, accepted, loaded⟩
    · rw [result]
      exact .of_refused refused ⟨records, rfl⟩
    · rw [result]
      exact .of_accepted accepted loaded
  · intro b
    rcases b.monitor.loadFrom_cases source with
      ⟨e, records, refused, result⟩ | ⟨n, result, accepted, loaded⟩
    · rw [loadFrom_of_error result]
      exact .of_refused refused ⟨records, rfl⟩
    · obtain ⟨records, result⟩ := loadFrom_of_ok result
      rw [result]
      refine .of_accepted accepted ?_
      intro silent
      obtain ⟨image, read, placed⟩ := loaded silent
      exact ⟨image, read, loadedFrom_resetDevices placed records⟩

/-- A map with one symbol. -/
def mapText : String := "Symbol: start main.c static FFFD"

/-- Two files: an image of three bytes and the map beside it. -/
def mappedFiles : Files := fun path =>
  if path = "game.bin" then .ok ⟨#[0x12, 0x20, 0xFD]⟩
  else if path = "game.map" then .ok mapText.toUTF8
  else .error .notFound

theorem mappedFiles_loaded :
    let d := ((Board.new 1000).loadFrom (.file mappedFiles "game.bin")).2
    (Board.new 1000).bus.readHandlers = [] ∧ d.pc = 0x20FD ∧ d.bus.peek 0xFFFD = 0x12 ∧
      d.bus.peek 0xFFFC = 0 ∧ d.monitor.symbols = .parse mapText.toList ∧
      ((Board.new 1000).loadFrom (.file mappedFiles "lost.bin")).1 = .error (.unreadable .notFound) := by
  dsimp only
  have whole := (loads_or_changes_nothing (.file mappedFiles "game.bin")).2 (.new 1000)
  have lost := (loads_or_changes_nothing (.file mappedFiles "lost.bin")).2 (.new 1000)
  have read : (ImageSource.file mappedFiles "game.bin").image = .ok #[0x12, 0x20, 0xFD] := rfl
  have accepted : ((Board.new 1000).loadFrom (.file mappedFiles "game.bin")).1 = .ok () := by
    cases answer : ((Board.new 1000).loadFrom (.file mappedFiles "game.bin")).1 with
    | ok _ => rfl
    | error e =>
        have refused := (whole.refuses e).mp answer
        rcases (ImageSource.refused_iff_of_ok read).mp refused with ⟨empty, _⟩ | ⟨large, _⟩
        · exact absurd empty (by decide)
        · exact absurd large (by decide)
  obtain ⟨image, again, loaded⟩ := whole.loads accepted rfl
  cases read.symm.trans again
  have table : (ImageSource.file mappedFiles "game.bin").symbols (Board.new 1000).monitor.symbols =
      .parse mapText.toList := by
    have text : mappedFiles.readText (Path.withExtension "game.bin" "map") = .ok mapText := by
      have name : Path.withExtension "game.bin" "map" = "game.map" := by decide
      simp [Files.readText, name, mappedFiles, String.fromUTF8?, String.fromUTF8,
        String.isValidUTF8]
    rw [ImageSource.symbols, text]
  obtain ⟨⟨⟨above, below, _, cpu, _⟩, symbols, _⟩, _⟩ := loaded
  generalize ((Board.new 1000).loadFrom (.file mappedFiles "game.bin")).2 = d
    at above below cpu symbols ⊢
  have first : d.monitor.core.bus.memory.read 0xFFFD = 0x12 := by
    simpa [Memory.size] using (above 0xFFFD (by decide)).symm
  have high : d.monitor.core.bus.memory.read 0xFFFE = 0x20 := by
    simpa [Memory.size] using (above 0xFFFE (by decide)).symm
  have low : d.monitor.core.bus.memory.read 0xFFFF = 0xFD := by
    simpa [Memory.size] using (above 0xFFFF (by decide)).symm
  have start : d.monitor.core.bus.memory.readWord Event.reset.vector = 0x20FD := by
    rw [Memory.readWord, show Event.reset.vector = 0xFFFE from rfl,
      show (0xFFFE : UInt16) + 1 = 0xFFFF by decide, high, low]
    decide
  refine ⟨rfl, ?_, first, below 0xFFFC (by decide), symbols.trans table,
    (lost.refuses _).mpr (.unreadable rfl)⟩
  rw [← start]
  exact congrArg (·.regs.pc) cpu

end Board
end Sim6809
