import WfyApp.FileFaults
import WfyApp.HomeWifi
import WfyApp.NumberText
import WfyApp.WpaConfig

/-! The updates of the configuration files (`wifi_switch_persist_home_wifi`,
`persist_band`, `rewrite_hostapd_channel`) as programs of file operations. Two of them
write a temporary file and rename it; the third writes its target in place. -/

namespace WfyApp.ConfigUpdates
open ByteText NumberText HomeWifi WpaConfig FileFaults

inductive Conf where
  | homeWifi
  | band
  | hostapd
deriving DecidableEq, Repr

inductive Path where
  | conf (c : Conf)
  | temp (c : Conf)
deriving DecidableEq, Repr

abbrev Files := FileProg Path UInt8
abbrev ConfDisk := Disk Path UInt8

def readFileAll (c : Conf) (bufSz : Nat) : Files (Option Bytes) :=
  .openRead (.conf c) fun content =>
    match content with
    | none => .ret none
    | some content => .closeRead (.conf c) fun _ =>
        .ret (HomeWifi.readFileAll bufSz (some content))

def writeFile (p : Path) (data : Bytes) : Files Bool :=
  .openWrite p fun opened =>
    if !opened then .ret false
    else .write p data fun wrote => .close p data wrote fun closed => .ret (wrote && closed)

def discard (c : Conf) : Files Bool := .unlink (.temp c) fun _ => .ret false

def commit (c : Conf) : Files Bool :=
  .rename (.temp c) (.conf c) fun renamed => if renamed then .ret true else discard c

/-- On the A733 a stream that did not take the text is left open. -/
def atomicWriteFile : Backend → Conf → Bytes → Files Bool
  | .rk3566, c, data => do
      let written ← writeFile (.temp c) data
      if !written then discard c else commit c
  | .a733, c, data =>
      .openWrite (.temp c) fun opened =>
        if !opened then .ret false
        else .write (.temp c) data fun wrote =>
          if !wrote then discard c
          else .close (.temp c) data true fun closed => if !closed then discard c else commit c

def persistHomeWifi (backend : Backend) (ssid password : Bytes) : Files Bool :=
  match HomeWifi.persistHomeWifi backend true ssid password with
  | none => .ret false
  | some body => atomicWriteFile backend .homeWifi body

/-- A line that takes the place of those that begin with one of the keys. -/
structure Rule where
  keys : List Bytes
  text : Bytes
deriving DecidableEq

def Rule.applies (r : Rule) (line : Bytes) : Bool :=
  r.keys.any fun key => key.isPrefixOf (stripLeft blank line)

def rewriteLine (rules : List Rule) (line : Bytes) : Bytes :=
  match rules.find? (·.applies line) with
  | some r => r.text
  | none => line ++ [newline]

def appendText (cap : Nat) (out text : Bytes) : Option Bytes :=
  if text.length < cap - out.length then some (out ++ text) else none

/-- Every line rewritten or copied, then the rules that no line called for. -/
def rewriteLines (cap : Nat) (rules : List Rule) (lines : List Bytes) : Option Bytes :=
  (lines.map (rewriteLine rules) ++
    ((rules.filter fun r => lines.all fun line => rules.find? (·.applies line) ≠ some r).map
      Rule.text)).foldlM (appendText cap) []

def bandName : Band → Bytes
  | .band5g => ascii "5G"
  | .band2g => ascii "2.4G"

def bandKey : Bytes := ascii "BAND"

def readBand (file : Option Bytes) : Band :=
  match file with
  | none => .band2g
  | some buf =>
      match ((textLines buf).filterMap (parseLine .rk3566)).find? fun field => field.1 = bandKey with
      | some field => if field.2 = ascii "5G" ∨ field.2 = ascii "5g" then .band5g else .band2g
      | none => .band2g

def bandRule (band : Band) : Rule :=
  ⟨[ascii "BAND=", ascii "BAND ="], ascii "BAND='" ++ bandName band ++ ascii "'\n"⟩

def bandText (band : Band) (file : Option Bytes) : Option Bytes :=
  rewriteLines 3072 [bandRule band] ((file.map textLines).getD [])

def rewriteBand (band : Band) (again : Option Bytes) : Files Bool :=
  match bandText band again with
  | none => .ret false
  | some out => atomicWriteFile .rk3566 .band out

/-- `persist_band` once it knows that the band is another one. -/
def lookAgain (band : Band) : Files Bool := do
  let again ← readFileAll .band 2048
  rewriteBand band again

def persistBand (band : Band) : Files Bool := do
  let file ← readFileAll .band 2048
  if readBand file = band then return true else lookAgain band

def bandToHwMode : Band → Bytes
  | .band5g => ascii "a"
  | .band2g => ascii "g"

def hostapdRules (channel : Int) (band : Band) : List Rule :=
  [⟨[ascii "channel="], ascii "channel=" ++ signed channel ++ [newline]⟩,
    ⟨[ascii "hw_mode="], ascii "hw_mode=" ++ bandToHwMode band ++ [newline]⟩]

def hostapdText (channel : Int) (band : Band) (buf : Bytes) : Option Bytes :=
  rewriteLines 9216 (hostapdRules channel band) (textLines buf)

def writeHostapd (rendered : Option Bytes) : Files Bool :=
  match rendered with
  | none => .ret false
  | some out => writeFile (.conf .hostapd) out

def rewriteHostapdChannel (channel : Int) (band : Band) : Files Bool := do
  let file ← readFileAll .hostapd 8192
  writeHostapd (file.bind (hostapdText channel band))

inductive Updater where
  | persistHomeWifi (backend : Backend) (ssid password : Bytes)
  | persistBand (band : Band)
  | rewriteHostapdChannel (channel : Int) (band : Band)

def Updater.program : Updater → Files Bool
  | .persistHomeWifi backend ssid password => ConfigUpdates.persistHomeWifi backend ssid password
  | .persistBand band => ConfigUpdates.persistBand band
  | .rewriteHostapdChannel channel band => ConfigUpdates.rewriteHostapdChannel channel band

def Updater.target : Updater → Path
  | .persistHomeWifi _ _ _ => .conf .homeWifi
  | .persistBand _ => .conf .band
  | .rewriteHostapdChannel _ _ => .conf .hostapd

def Updater.newContent (u : Updater) (old : Option Bytes) : Option Bytes :=
  match u with
  | .persistHomeWifi backend ssid password =>
      HomeWifi.persistHomeWifi backend true ssid password
  | .persistBand band => bandText band (HomeWifi.readFileAll 2048 old)
  | .rewriteHostapdChannel channel band =>
      (HomeWifi.readFileAll 8192 old).bind (hostapdText channel band)

/-- The target has its old or its new content, and its old one if the update failed. -/
def Fair (target : Path) (new : Option Bytes) (d : ConfDisk)
    (ended : ConfDisk × Option (Bool × Fault)) : Prop :=
  (ended.1 target = d target ∨ ∃ text, new = some text ∧ ended.1 target = some text) ∧
    ((∃ f', ended.2 = some (false, f')) → ended.1 target = d target)

def AllOrNothing (u : Updater) (d : ConfDisk) (f : Fault) : Prop :=
  Fair u.target (u.newContent (d u.target)) d (run u.program d f)

/-- The fault hits an update that truncates its target while that is being written, and
what is on the disk then is not the old text (nor the new, if nothing was returned). -/
def Torn (old new : Bytes) : Fault → Prop
  | .fails 3 kept => new.take kept ≠ old
  | .fails 4 kept => new.take kept ≠ old
  | .stops 3 _ => [] ≠ old ∧ [] ≠ new
  | .stops 4 kept => new.take kept ≠ old ∧ new.take kept ≠ new
  | _ => False

/-- The cases in which an update leaves something else behind. `persist_band` opens its
file twice; if only the second time fails, it goes on as if there were none. -/
def Spoils (u : Updater) (d : ConfDisk) (f : Fault) : Prop :=
  match u with
  | .persistHomeWifi _ _ _ => False
  | .persistBand band => ∃ old kept, d (.conf .band) = some old ∧ f = .fails 2 kept ∧
      readBand (HomeWifi.readFileAll 2048 (some old)) ≠ band ∧ (bandRule band).text ≠ old ∧
      bandText band (HomeWifi.readFileAll 2048 (some old)) ≠ some (bandRule band).text
  | .rewriteHostapdChannel channel band => ∃ old new, d (.conf .hostapd) = some old ∧
      (HomeWifi.readFileAll 8192 (some old)).bind (hostapdText channel band) = some new ∧
      Torn old new f

theorem fair_of_same {target : Path} {new : Option Bytes} {d : ConfDisk}
    {ended : ConfDisk × Option (Bool × Fault)} (same : ended.1 target = d target) :
    Fair target new d ended := ⟨.inl same, fun _ => same⟩

/-- An update by replacement: it succeeds with the new text or leaves the file alone. -/
def Replaced (c : Conf) (data : Bytes) (d : ConfDisk)
    (ended : ConfDisk × Option (Bool × Fault)) : Prop :=
  (ended.1 (.conf c) = some data ∧ ∃ f', ended.2 = some (true, f')) ∨
    (ended.1 (.conf c) = d (.conf c) ∧ ∀ f', ended.2 ≠ some (true, f'))

theorem touches_discard (c : Conf) : Touches (· = .temp c) (discard c) := ⟨rfl, fun _ => trivial⟩

theorem replaced_discard (c : Conf) (data : Bytes) (d : ConfDisk) (f : Fault) :
    Replaced c data d (run (discard c) d f) := by
  refine .inr ⟨run_other (· = .temp c) (by simp) _ (touches_discard c) d f, ?_⟩
  simp only [discard, run]
  split <;> simp

theorem replaced_commit (c : Conf) (data : Bytes) (d : ConfDisk) (f : Fault)
    (ready : d (.temp c) = some data) : Replaced c data d (run (commit c) d f) := by
  simp only [commit, run]
  by_cases halts : f.halts = true
  · rw [if_pos halts]
    exact .inr ⟨rfl, by simp⟩
  · rw [if_neg halts]
    by_cases strikes : f.strikes = true
    · rw [if_pos strikes]
      exact replaced_discard c data d f.tick
    · rw [if_neg strikes]
      exact .inl ⟨by simp [run, ready], f.tick, rfl⟩

theorem Replaced.of_same {c : Conf} {data : Bytes} {d d' : ConfDisk}
    {ended : ConfDisk × Option (Bool × Fault)} (same : d' (.conf c) = d (.conf c))
    (replaced : Replaced c data d' ended) : Replaced c data d ended := by
  rw [Replaced, same] at replaced
  exact replaced

theorem touches_writeFile (p : Path) (data : Bytes) : Touches (· = p) (writeFile p data) := by
  refine ⟨rfl, fun opened => ?_⟩
  cases opened
  · trivial
  · exact ⟨rfl, fun _ => ⟨rfl, fun _ => trivial⟩⟩

theorem run_writeFile (p : Path) (data : Bytes) (d : ConfDisk) (f : Fault) :
    run (writeFile p data) d f =
      match f with
      | .none => (Function.update d p (some data), some (true, .none))
      | .fails 0 _ => (d, some (false, .none))
      | .fails 1 kept => (Function.update d p (some (data.take kept)), some (false, .none))
      | .fails 2 kept => (Function.update d p (some (data.take kept)), some (false, .none))
      | .fails (n + 3) kept => (Function.update d p (some data), some (true, .fails n kept))
      | .stops 0 _ => (d, none)
      | .stops 1 _ => (Function.update d p (some []), none)
      | .stops 2 kept => (Function.update d p (some (data.take kept)), none)
      | .stops (n + 3) kept => (Function.update d p (some data), some (true, .stops n kept)) := by
  rcases f with _ | ⟨_ | _ | _ | n, kept⟩ | ⟨_ | _ | _ | n, kept⟩ <;>
    simp [writeFile, run, Fault.kept]

theorem writeFile_written (p : Path) (data : Bytes) (d d' : ConfDisk) (f f' : Fault)
    (written : run (writeFile p data) d f = (d', some (true, f'))) : d' p = some data := by
  rw [run_writeFile] at written
  split at written <;> cases written <;> simp

theorem writeFile_other (p q : Path) (data : Bytes) (d d' : ConfDisk) (f : Fault)
    (ended : Option (Bool × Fault)) (other : q ≠ p)
    (ran : run (writeFile p data) d f = (d', ended)) : d' q = d q := by
  have same := run_other (· = p) other _ (touches_writeFile p data) d f
  rw [ran] at same
  exact same

theorem replaced_rk3566 (c : Conf) (data : Bytes) (d : ConfDisk) (f : Fault) :
    Replaced c data d (run (atomicWriteFile .rk3566 c data) d f) := by
  rw [atomicWriteFile, run_bind]
  cases ran : run (writeFile (.temp c) data) d f with
  | mk d' ended =>
      have same := writeFile_other _ (.conf c) data d d' f ended (by simp) ran
      cases ended with
      | none => exact .inr ⟨same, by simp⟩
      | some result =>
          obtain ⟨written, f'⟩ := result
          cases written with
          | false => exact (replaced_discard c data d' f').of_same same
          | true =>
              have ready := writeFile_written _ data d d' f f' ran
              exact (replaced_commit c data d' f' ready).of_same same

theorem replaced_a733 (c : Conf) (data : Bytes) (d : ConfDisk) (f : Fault) :
    Replaced c data d (run (atomicWriteFile .a733 c data) d f) := by
  have unchanged : ∀ d' : ConfDisk, d' (.conf c) = d (.conf c) →
      ∀ ended : Option (Bool × Fault), (∀ f', ended ≠ some (true, f')) →
        Replaced c data d (d', ended) := fun d' same ended other => .inr ⟨same, other⟩
  rcases f with _ | ⟨_ | _ | _ | n, kept⟩ | ⟨_ | _ | _ | n, kept⟩
  · exact (replaced_commit c data _ .none (by simp)).of_same (by simp)
  · exact unchanged d rfl _ (by simp)
  · exact (replaced_discard c data _ .none).of_same (by simp)
  · exact (replaced_discard c data _ .none).of_same (by simp)
  · exact (replaced_commit c data _ (.fails n kept) (by simp)).of_same (by simp)
  · exact unchanged d rfl _ (by simp)
  · exact unchanged _ (by simp) none (by simp)
  · exact unchanged _ (by simp) none (by simp)
  · exact (replaced_commit c data _ (.stops n kept) (by simp)).of_same (by simp)

theorem replaced_atomicWriteFile (backend : Backend) (c : Conf) (data : Bytes) (d : ConfDisk)
    (f : Fault) : Replaced c data d (run (atomicWriteFile backend c data) d f) := by
  cases backend with
  | rk3566 => exact replaced_rk3566 c data d f
  | a733 => exact replaced_a733 c data d f

theorem Replaced.fair {c : Conf} {data : Bytes} {new : Option Bytes} {d : ConfDisk}
    {ended : ConfDisk × Option (Bool × Fault)} (replaced : Replaced c data d ended)
    (rendered : new = some data) : Fair (.conf c) new d ended := by
  rcases replaced with ⟨written, f', result⟩ | ⟨same, -⟩
  · refine ⟨.inr ⟨data, rendered, written⟩, fun failed => ?_⟩
    obtain ⟨f'', failed⟩ := failed
    rw [result] at failed
    cases failed
  · exact fair_of_same same

theorem persistHomeWifi_fair (backend : Backend) (ssid password : Bytes) (d : ConfDisk)
    (f : Fault) : AllOrNothing (.persistHomeWifi backend ssid password) d f := by
  unfold AllOrNothing
  simp only [Updater.program, Updater.target, Updater.newContent, persistHomeWifi]
  cases rendered : HomeWifi.persistHomeWifi backend true ssid password with
  | none => exact fair_of_same rfl
  | some body => exact (replaced_atomicWriteFile backend .homeWifi body d f).fair rfl

theorem run_readFileAll_missing (c : Conf) (bufSz : Nat) (d : ConfDisk) (f : Fault)
    (missing : d (.conf c) = none) :
    run (readFileAll c bufSz) d f =
      if f.halts then (d, none) else (d, some (none, f.tick)) := by
  simp only [readFileAll, run, missing, ite_self]

theorem run_readFileAll_present (c : Conf) (bufSz : Nat) (d : ConfDisk) (f : Fault)
    (content : Bytes) (present : d (.conf c) = some content) :
    run (readFileAll c bufSz) d f =
      match f with
      | .none => (d, some (HomeWifi.readFileAll bufSz (some content), .none))
      | .fails 0 _ => (d, some (none, .none))
      | .fails 1 _ => (d, some (HomeWifi.readFileAll bufSz (some content), .none))
      | .fails (n + 2) kept =>
          (d, some (HomeWifi.readFileAll bufSz (some content), .fails n kept))
      | .stops 0 _ => (d, none)
      | .stops 1 _ => (d, none)
      | .stops (n + 2) kept =>
          (d, some (HomeWifi.readFileAll bufSz (some content), .stops n kept)) := by
  rcases f with _ | ⟨_ | _ | n, kept⟩ | ⟨_ | _ | n, kept⟩ <;>
    simp [readFileAll, run, present]

/-- A look at a file changes nothing; the program goes on with what it saw, if anything. -/
theorem fair_readFileAll {target : Path} {new : Option Bytes} (c : Conf) (bufSz : Nat)
    (next : Option Bytes → Files Bool) (d : ConfDisk) (f : Fault)
    (fair : ∀ seen f', seen = none ∨ seen = HomeWifi.readFileAll bufSz (d (.conf c)) →
      Fair target new d (run (next seen) d f')) :
    Fair target new d (run (readFileAll c bufSz >>= next) d f) := by
  rw [run_bind]
  cases file : d (.conf c) with
  | none =>
      rw [run_readFileAll_missing _ _ _ _ file]
      by_cases halts : f.halts = true
      · rw [if_pos halts]
        exact fair_of_same rfl
      · rw [if_neg halts]
        exact fair none f.tick (.inl rfl)
  | some content =>
      rw [file] at fair
      rw [run_readFileAll_present _ _ _ _ content file]
      rcases f with _ | ⟨_ | _ | n, kept⟩ | ⟨_ | _ | n, kept⟩
      · exact fair _ _ (.inr rfl)
      · exact fair _ _ (.inl rfl)
      · exact fair _ _ (.inr rfl)
      · exact fair _ _ (.inr rfl)
      · exact fair_of_same rfl
      · exact fair_of_same rfl
      · exact fair _ _ (.inr rfl)

theorem bandText_missing (band : Band) : bandText band none = some (bandRule band).text := by
  cases band <;> decide +kernel

theorem rewriteBand_fair (band : Band) (again : Option Bytes) (d : ConfDisk) (f : Fault) :
    Fair (.conf .band) (bandText band again) d (run (rewriteBand band again) d f) := by
  unfold rewriteBand
  cases rendered : bandText band again with
  | none => exact fair_of_same rfl
  | some out => exact (replaced_atomicWriteFile .rk3566 .band out d f).fair rfl

theorem atomicWriteFile_faultless (c : Conf) (data : Bytes) (d : ConfDisk) :
    (run (atomicWriteFile .rk3566 c data) d .none).1 (.conf c) = some data ∧
      (run (atomicWriteFile .rk3566 c data) d .none).2 = some (true, .none) := by
  simp [atomicWriteFile, run_bind, run_writeFile, commit, run]

section Band
variable (band : Band) (d : ConfDisk) (old : Bytes) (present : d (.conf .band) = some old)
include present

/-- The rest of `persist_band` if its second look at the file does not fail. -/
theorem lookAgain_fair (f : Fault) (opens : f.strikes = false) :
    Fair (.conf .band) (bandText band (HomeWifi.readFileAll 2048 (some old))) d
      (run (lookAgain band) d f) := by
  rw [lookAgain, run_bind, run_readFileAll_present _ _ _ _ old present]
  rcases f with _ | ⟨_ | _ | n, kept⟩ | ⟨_ | _ | n, kept⟩
  · exact rewriteBand_fair band _ d _
  · cases opens
  · exact rewriteBand_fair band _ d _
  · exact rewriteBand_fair band _ d _
  · exact fair_of_same rfl
  · exact fair_of_same rfl
  · exact rewriteBand_fair band _ d _

theorem lookAgain_fair_iff (kept : Nat) :
    Fair (.conf .band) (bandText band (HomeWifi.readFileAll 2048 (some old))) d
        (run (lookAgain band) d (.fails 0 kept)) ↔
      (bandRule band).text = old ∨
        bandText band (HomeWifi.readFileAll 2048 (some old)) = some (bandRule band).text := by
  obtain ⟨written, returned⟩ := atomicWriteFile_faultless .band (bandRule band).text d
  rw [lookAgain, run_bind, run_readFileAll_present _ _ _ _ old present]
  simp only [rewriteBand, bandText_missing, Fair, written, returned, present]
  simp [eq_comm]

theorem look_fair (seen : Option Bytes) (f : Fault) (opens : f.strikes = false) :
    Fair (.conf .band) (bandText band (HomeWifi.readFileAll 2048 (some old))) d
      (run (if readBand seen = band then pure true else lookAgain band) d f) := by
  split_ifs
  · exact fair_of_same rfl
  · exact lookAgain_fair band d old present f opens

theorem persistBand_present_iff (f : Fault) :
    AllOrNothing (.persistBand band) d f ↔ ¬Spoils (.persistBand band) d f := by
  simp only [AllOrNothing, Updater.target, Updater.newContent, Updater.program, Spoils, present]
  rw [persistBand, run_bind, run_readFileAll_present _ _ _ _ old present]
  rcases f with _ | ⟨_ | _ | n, kept⟩ | ⟨_ | _ | n, kept⟩
  · exact iff_of_true (look_fair band d old present _ _ rfl) (by simp)
  · exact iff_of_true (look_fair band d old present _ _ rfl) (by simp)
  · exact iff_of_true (look_fair band d old present _ _ rfl) (by simp)
  · cases n with
    | zero =>
        by_cases already : readBand (HomeWifi.readFileAll 2048 (some old)) = band
        · refine iff_of_true ?_ (by simp [already])
          simp only [already, ↓reduceIte]
          exact fair_of_same rfl
        · simp only [already, ↓reduceIte]
          rw [lookAgain_fair_iff band d old present]
          simp [already, or_iff_not_imp_left]
    | succ n => exact iff_of_true (look_fair band d old present _ _ rfl) (by simp)
  · exact iff_of_true (fair_of_same rfl) (by simp)
  · exact iff_of_true (fair_of_same rfl) (by simp)
  · exact iff_of_true (look_fair band d old present _ _ rfl) (by simp)

end Band

theorem persistBand_missing_fair (band : Band) (d : ConfDisk) (f : Fault)
    (missing : d (.conf .band) = none) : AllOrNothing (.persistBand band) d f := by
  have unread : ∀ seen : Option Bytes,
      seen = none ∨ seen = HomeWifi.readFileAll 2048 (d (.conf .band)) → seen = none := by
    simp [missing, HomeWifi.readFileAll]
  unfold AllOrNothing
  simp only [Updater.target, Updater.newContent, Updater.program, persistBand]
  refine fair_readFileAll _ _ _ d f fun file f' seen => ?_
  split_ifs
  · exact fair_of_same rfl
  · refine fair_readFileAll _ _ _ d f' fun again f'' seenAgain => ?_
    rw [unread again seenAgain, missing]
    exact rewriteBand_fair band none d f''

theorem persistBand_iff (band : Band) (d : ConfDisk) (f : Fault) :
    AllOrNothing (.persistBand band) d f ↔ ¬Spoils (.persistBand band) d f := by
  cases file : d (.conf .band) with
  | none =>
      refine iff_of_true (persistBand_missing_fair band d f file) ?_
      simp [Spoils, file]
  | some old => exact persistBand_present_iff band d old file f

section Hostapd
variable {d : ConfDisk} {old new : Bytes} (present : d (.conf .hostapd) = some old)
include present

theorem fair_failed_iff (text : Bytes) (f : Fault) :
    Fair (.conf .hostapd) (some new) d
        (Function.update d (.conf .hostapd) (some text), some (false, f)) ↔ text = old := by
  simpa [Fair, present] using Or.inl

theorem fair_stopped_iff (text : Bytes) :
    Fair (.conf .hostapd) (some new) d (Function.update d (.conf .hostapd) (some text), none) ↔
      text = old ∨ text = new := by
  simp [Fair, present, eq_comm]

omit present in
theorem fair_written (f : Fault) :
    Fair (.conf .hostapd) (some new) d
      (Function.update d (.conf .hostapd) (some new), some (true, f)) :=
  ⟨.inr ⟨new, rfl, by simp⟩, by simp⟩

theorem rewriteHostapdChannel_present_iff (channel : Int) (band : Band) (f : Fault)
    (rendered : (HomeWifi.readFileAll 8192 (some old)).bind (hostapdText channel band) = some new) :
    AllOrNothing (.rewriteHostapdChannel channel band) d f ↔ ¬Torn old new f := by
  simp only [AllOrNothing, Updater.target, Updater.newContent, Updater.program, present, rendered]
  rw [rewriteHostapdChannel, run_bind, run_readFileAll_present _ _ _ _ old present]
  rcases f with _ | ⟨_ | _ | _ | _ | _ | n, kept⟩ | ⟨_ | _ | _ | _ | _ | n, kept⟩ <;>
    simp only [rendered, Option.bind_none, writeHostapd, run_writeFile, Torn, not_not, not_and_or]
  · exact iff_of_true (fair_written _) id
  · exact iff_of_true (fair_of_same rfl) id
  · exact iff_of_true (fair_written _) id
  · exact iff_of_true (fair_of_same rfl) id
  · exact fair_failed_iff present _ _
  · exact fair_failed_iff present _ _
  · exact iff_of_true (fair_written _) id
  · exact iff_of_true (fair_of_same rfl) id
  · exact iff_of_true (fair_of_same rfl) id
  · exact iff_of_true (fair_of_same rfl) id
  · exact fair_stopped_iff present _
  · exact fair_stopped_iff present _
  · exact iff_of_true (fair_written _) id

end Hostapd

theorem rewriteHostapdChannel_unrendered (channel : Int) (band : Band) (d : ConfDisk) (f : Fault)
    (unrendered : (HomeWifi.readFileAll 8192 (d (.conf .hostapd))).bind (hostapdText channel band) =
      none) : AllOrNothing (.rewriteHostapdChannel channel band) d f := by
  refine fair_readFileAll _ _ _ d f fun file f' seen => fair_of_same ?_
  rcases seen with rfl | rfl
  · rfl
  · rw [unrendered]
    rfl

theorem rewriteHostapdChannel_iff (channel : Int) (band : Band) (d : ConfDisk) (f : Fault) :
    AllOrNothing (.rewriteHostapdChannel channel band) d f ↔
      ¬Spoils (.rewriteHostapdChannel channel band) d f := by
  cases rendered : (HomeWifi.readFileAll 8192 (d (.conf .hostapd))).bind
      (hostapdText channel band) with
  | none =>
      refine iff_of_true (rewriteHostapdChannel_unrendered channel band d f rendered) ?_
      rintro ⟨old, new, present, written, -⟩
      rw [present, written] at rendered
      cases rendered
  | some new =>
      cases file : d (.conf .hostapd) with
      | none =>
          rw [file] at rendered
          cases rendered
      | some old =>
          rw [file] at rendered
          rw [rewriteHostapdChannel_present_iff file channel band f rendered]
          refine not_congr ⟨fun torn => ⟨old, new, file, rendered, torn⟩, ?_⟩
          rintro ⟨old', new', present, written, torn⟩
          cases file.symm.trans present
          cases rendered.symm.trans written
          exact torn

/-- For every previous content and every single fault, an update is all-or-nothing unless
it is one of the two that can spoil their file, in just the cases named there. -/
theorem allOrNothing_iff (u : Updater) (d : ConfDisk) (f : Fault) :
    AllOrNothing u d f ↔ ¬Spoils u d f := by
  cases u with
  | persistHomeWifi backend ssid password =>
      exact iff_of_true (persistHomeWifi_fair backend ssid password d f) id
  | persistBand band => exact persistBand_iff band d f
  | rewriteHostapdChannel channel band => exact rewriteHostapdChannel_iff channel band d f

def apConf : Bytes := ascii "ssid=ap\nchannel=1\nhw_mode=g\n"

def commentedBand : Bytes := ascii "# keep\nBAND='2.4G'\n"

def faultDisk : ConfDisk
  | .conf .hostapd => some apConf
  | .conf .band => some commentedBand
  | _ => none

theorem hostapdText_apConf :
    (HomeWifi.readFileAll 8192 (some apConf)).bind (hostapdText 6 .band2g) =
      some (ascii "ssid=ap\nchannel=6\nhw_mode=g\n") := by
  have six : signed 6 = [0x36] := by decide +kernel
  simp only [HomeWifi.readFileAll, Option.map_some, Option.bind_some, hostapdText, hostapdRules, six]
  decide +kernel

/-- With the disk full, `rewrite_hostapd_channel` fails and leaves an empty file; with its
second `fopen` failing, `persist_band` succeeds and drops all but its own line. -/
theorem updates_lose_content :
    (run (rewriteHostapdChannel 6 .band2g) faultDisk (.fails 3 0)).1 (.conf .hostapd) = some [] ∧
      (run (rewriteHostapdChannel 6 .band2g) faultDisk (.fails 3 0)).2 = some (false, .none) ∧
      ¬AllOrNothing (.rewriteHostapdChannel 6 .band2g) faultDisk (.fails 3 0) ∧
      (run (persistBand .band5g) faultDisk (.fails 2 0)).1 (.conf .band) =
        some (ascii "BAND='5G'\n") ∧
      ¬AllOrNothing (.persistBand .band5g) faultDisk (.fails 2 0) := by
  have emptied : run (rewriteHostapdChannel 6 .band2g) faultDisk (.fails 3 0) =
      (Function.update faultDisk (.conf .hostapd) (some []), some (false, .none)) := by
    rw [rewriteHostapdChannel, run_bind, run_readFileAll_present _ _ _ _ apConf rfl]
    simp only [hostapdText_apConf, writeHostapd, run_writeFile, List.take_zero]
  rw [emptied]
  refine ⟨by simp, rfl, ?_, ?_, ?_⟩
  · rw [rewriteHostapdChannel_present_iff rfl 6 .band2g _ hostapdText_apConf, not_not]
    exact (by decide +kernel : [] ≠ apConf)
  · decide +kernel
  · rw [persistBand_iff, not_not]
    exact ⟨commentedBand, 0, rfl, rfl, by decide +kernel, by decide +kernel, by decide +kernel⟩

end WfyApp.ConfigUpdates
