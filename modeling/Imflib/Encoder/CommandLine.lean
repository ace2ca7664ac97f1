import Imflib.Encoder.EncodeThreads
import Imflib.Encoder.EncoderParameters
import Imflib.Encoder.MxfWriter

/-! The command line of `imfenc`: the options it takes, and the names of the files it makes. -/

namespace Imflib.Encoder

/-- What `boost::program_options` stores. Options with defaults always have a value. -/
structure VariablesMap where
  help : Bool := false
  inputFile : Option String := none
  outDirectory : Option String := none
  tempDirectory : Option String := none
  force : Bool := false
  profile : Int := 1
  bitDepth : Int := 10
  sampleRate : Int := 48000
  colorFormat : String := "RGB444"
  useTiles : Bool := false
  noMux : Bool := false
  extractAudio : Bool := false
  threads : Option Int := none
  fullRange : Bool := false

inductive SampleRate where
  | sr48000
  | sr96000
  deriving DecidableEq, Repr

def SampleRate.hertz : SampleRate → Nat
  | sr48000 => 48000
  | sr96000 => 96000

/-- `EncoderOptions`, with the part of them that the encoder gets. -/
structure ProgramOptions extends EncoderOptions where
  overwriteFiles : Bool
  extractAudio : Bool
  fullRange : Bool
  doMct : Bool
  noMux : Bool
  threads : Int
  inputFile : String
  tempFilePath : String
  outputPath : String
  sampleRate : SampleRate

inductive Usage where
  | help
  | message (text : String)
  deriving DecidableEq, Repr

def readColorFormat (text : String) : Option (ColorFormat × Bool) :=
  if text = "RGB444" ∨ text = "rgb444" ∨ text = "RGB" ∨ text = "rgb" then some (.rgb444, true)
  else if text = "YUV444" ∨ text = "yuv444" ∨ text = "yuv444p" then some (.yuv444, false)
  else if text = "YUV422" ∨ text = "yuv422" ∨ text = "yuv422p" then some (.yuv422, false)
  else none

def readBitDepth (bitDepth : Int) : Option BitRate :=
  if bitDepth = 8 then some .br8bit
  else if bitDepth = 10 then some .br10bit
  else if bitDepth = 12 then some .br12bit
  else none

def readSampleRate (sampleRate : Int) : Option SampleRate :=
  if sampleRate = 48000 then some .sr48000
  else if sampleRate = 96000 then some .sr96000
  else none

def require {α : Type} (message : String) : Option α → Except Usage α
  | some value => .ok value
  | none => .error (.message message)

def ensure (holds : Prop) [Decidable holds] (message : String) : Except Usage Unit :=
  if holds then .ok () else .error (.message message)

section Parse

variable (isDirectory isRegularFile : String → Bool) (vm : VariablesMap)

def parseProgramOptions : Except Usage ProgramOptions :=
  if vm.help then .error .help
  else do
    let inputFile ← require "no input file specified (-i)" vm.inputFile
    let outDirectory ← require "no output directory specified (-o)" vm.outDirectory
    let tempDirectory := vm.tempDirectory.getD outDirectory
    let threads ← require "you must specify number of threads (--threads)" vm.threads
    ensure (1 ≤ vm.profile ∧ vm.profile ≤ 7) "profile must be between 1 and 7"
    let bitDepth ← require "bitdepth must be 8, 10 or 12" (readBitDepth vm.bitDepth)
    let sampleRate ← require "sample rate must be 48000 or 96000" (readSampleRate vm.sampleRate)
    let color ← require ("invalid color format: " ++ vm.colorFormat ++
      ". Must be RGB444, YUV444 or YUV422") (readColorFormat vm.colorFormat)
    ensure (isDirectory tempDirectory = true)
      (tempDirectory ++ " is not a directory or doesn't exist")
    ensure (isDirectory outDirectory = true)
      (outDirectory ++ " is not a directory or doesn't exist")
    ensure (isRegularFile inputFile = true) (inputFile ++ " is not a file or doesn't exist")
    ensure (vm.useTiles = true → vm.profile = 6 ∨ vm.profile = 7)
      "Tried to use tiles with single tiles profile."
    ensure (color.2 = true → color.1 = .rgb444) "Tried to do mct on non RGB essence."
    pure
      { profile := vm.profile
        bitsPerComponent := bitDepth
        colorFormat := color.1
        useTiles := vm.useTiles
        overwriteFiles := vm.force
        extractAudio := vm.extractAudio
        fullRange := vm.fullRange
        doMct := color.2
        noMux := vm.noMux
        threads := threads
        inputFile := inputFile
        tempFilePath := tempDirectory
        outputPath := outDirectory
        sampleRate := sampleRate }

/-- What a command line needs. -/
structure VariablesMap.Complete : Prop where
  noHelp : vm.help = false
  threads : vm.threads.isSome = true
  profile : 1 ≤ vm.profile ∧ vm.profile ≤ 7
  bitDepth : vm.bitDepth = 8 ∨ vm.bitDepth = 10 ∨ vm.bitDepth = 12
  sampleRate : vm.sampleRate = 48000 ∨ vm.sampleRate = 96000
  colorFormat : vm.colorFormat ∈ ["RGB444", "rgb444", "RGB", "rgb", "YUV444", "yuv444", "yuv444p",
    "YUV422", "yuv422", "yuv422p"]
  tiles : vm.useTiles = true → 6 ≤ vm.profile
  input : ∃ file ∈ vm.inputFile, isRegularFile file = true
  output : ∃ directory ∈ vm.outDirectory, isDirectory directory = true ∧
    isDirectory (vm.tempDirectory.getD directory) = true

end Parse

structure ProgramOptions.Sound (options : ProgramOptions) : Prop where
  pixelFormat : ∃ format,
    targetVideoPixelFormat options.bitsPerComponent.bits options.colorFormat = .ok format
  doMct : options.doMct = true ↔ options.colorFormat = .rgb444
  accepted : ∀ editRate width height, 0 < width → 0 < height → editRate.num ≠ 0 →
    (options.j2kEncoder editRate width height).Accepted

section Accepted

variable {isDirectory isRegularFile : String → Bool} {vm : VariablesMap}

theorem require_eq_ok {α : Type} {message : String} {value : Option α} {result : α} :
    require message value = .ok result ↔ value = some result := by
  cases value <;> simp [require]

theorem ensure_eq_ok {holds : Prop} [Decidable holds] {message : String} {result : Unit} :
    ensure holds message = .ok result ↔ holds := by
  unfold ensure
  split <;> simp_all

theorem bind_ok {α β : Type} {first : Except Usage α} {next : α → Except Usage β} {result : β} :
    (first >>= next) = .ok result ↔ ∃ value, first = .ok value ∧ next value = .ok result := by
  cases first <;> simp [bind, Except.bind]

theorem readColorFormat_mct {text : String} {format : ColorFormat} {doMct : Bool}
    (read : readColorFormat text = some (format, doMct)) : doMct = true ↔ format = .rgb444 := by
  unfold readColorFormat at read
  split_ifs at read <;> cases read <;> simp

theorem readSampleRate_isSome {sampleRate : Int} :
    (∃ rate, readSampleRate sampleRate = some rate) ↔ sampleRate = 48000 ∨ sampleRate = 96000 := by
  unfold readSampleRate
  split_ifs <;> simp <;> omega

theorem readBitDepth_isSome {bitDepth : Int} :
    (∃ depth, readBitDepth bitDepth = some depth) ↔ bitDepth = 8 ∨ bitDepth = 10 ∨ bitDepth = 12 := by
  unfold readBitDepth
  split_ifs <;> simp <;> omega

theorem readColorFormat_isSome {text : String} : (∃ read, readColorFormat text = some read) ↔
    text ∈ ["RGB444", "rgb444", "RGB", "rgb", "YUV444", "yuv444", "yuv444p", "YUV422", "yuv422",
      "yuv422p"] := by
  unfold readColorFormat
  simp only [List.mem_cons, List.not_mem_nil, or_false]
  split_ifs with rgb yuv444 yuv422 <;> simp <;> tauto

theorem parse_ok_iff : (∃ options, parseProgramOptions isDirectory isRegularFile vm = .ok options) ↔
    vm.Complete isDirectory isRegularFile := by
  unfold parseProgramOptions
  constructor
  · rintro ⟨options, parsed⟩
    split at parsed
    · cases parsed
    · rename_i noHelp
      simp only [bind_ok, require_eq_ok, ensure_eq_ok] at parsed
      obtain ⟨inputFile, input, outDirectory, output, threads, given, -, profile, depth, bitDepth,
        rate, sampleRate, color, colorFormat, -, temp, -, out, -, regular, -, tiles, -, mct, -⟩ := parsed
      exact
        { noHelp := Bool.not_eq_true _ ▸ noHelp
          threads := Option.isSome_iff_exists.mpr ⟨threads, given⟩
          profile
          bitDepth := readBitDepth_isSome.mp ⟨depth, bitDepth⟩
          sampleRate := readSampleRate_isSome.mp ⟨rate, sampleRate⟩
          colorFormat := readColorFormat_isSome.mp ⟨color, colorFormat⟩
          tiles := fun used => by rcases tiles used with last | last <;> omega
          input := ⟨inputFile, input, regular⟩
          output := ⟨outDirectory, output, out, temp⟩ }
  · intro complete
    obtain ⟨threads, given⟩ := Option.isSome_iff_exists.mp complete.threads
    obtain ⟨depth, bitDepth⟩ := readBitDepth_isSome.mpr complete.bitDepth
    obtain ⟨rate, sampleRate⟩ := readSampleRate_isSome.mpr complete.sampleRate
    obtain ⟨⟨format, doMct⟩, colorFormat⟩ := readColorFormat_isSome.mpr complete.colorFormat
    obtain ⟨inputFile, input, regular⟩ := complete.input
    obtain ⟨outDirectory, output, out, temp⟩ := complete.output
    have last := complete.profile
    have tiles : vm.useTiles = true → vm.profile = 6 ∨ vm.profile = 7 := by
      intro used
      have least := complete.tiles used
      omega
    have mct := (readColorFormat_mct colorFormat).mp
    rw [if_neg (by simp [complete.noHelp])]
    simp only [bind_ok, require_eq_ok, ensure_eq_ok]
    exact ⟨_, inputFile, input, outDirectory, output, threads, given, (), last, depth, bitDepth, rate,
      sampleRate, (format, doMct), colorFormat, (), temp, (), out, (), regular, (), tiles, (), mct, rfl⟩

theorem sound_of_parse {options : ProgramOptions}
    (parsed : parseProgramOptions isDirectory isRegularFile vm = .ok options) : options.Sound := by
  unfold parseProgramOptions at parsed
  split at parsed
  · cases parsed
  · simp only [bind_ok, require_eq_ok, ensure_eq_ok] at parsed
    obtain ⟨inputFile, -, outDirectory, -, threads, -, -, profile, depth, -, rate, -,
      ⟨format, doMct⟩, colorFormat, -, -, -, -, -, -, -, tiles, -, -, made⟩ := parsed
    cases made
    refine ⟨?_, readColorFormat_mct colorFormat, fun editRate width height wide high positive => ?_⟩
    · cases depth <;> cases format <;> exact ⟨_, rfl⟩
    · refine J2KEncoder.accepted_iff.mpr ⟨wide, high, positive, ?_⟩
      unfold J2KEncoder.setBroadcastProfile EncoderOptions.j2kEncoder
      dsimp only
      by_cases single : 1 ≤ vm.profile ∧ vm.profile ≤ 5
      · have noTiles : ¬ vm.useTiles = true := by
          intro used
          rcases tiles used with last | last <;> omega
        rw [if_pos single, if_neg noTiles]
        exact ⟨_, rfl⟩
      · have multi : vm.profile = 6 ∨ vm.profile = 7 := by omega
        rw [if_neg single, if_pos multi]
        exact ⟨_, rfl⟩

/-- What a command line needs, and that it is enough for the parts of the program. -/
theorem command_line_accepted (isDirectory isRegularFile : String → Bool) (vm : VariablesMap) :
    ((∃ options, parseProgramOptions isDirectory isRegularFile vm = .ok options) ↔
      vm.Complete isDirectory isRegularFile) ∧
    ∀ options, parseProgramOptions isDirectory isRegularFile vm = .ok options → options.Sound :=
  ⟨parse_ok_iff, fun _ parsed => sound_of_parse parsed⟩

end Accepted

section Names

-- what a stream prints for a frame rate, in single precision
variable (rateText : RationalNumber → List Char)

def fpsString (editRate : RationalNumber) : List Char :=
  (rateText editRate).filter fun c => c ≠ '.'

def audioFileName (options : ProgramOptions) (channels bitsPerSample : Int) (index : Nat) : String :=
  "IMF_ODM_PCM_" ++ String.ofList (Text.digits options.sampleRate.hertz ++ '_' ::
    Text.decimal channels ++ "ch_".toList ++ Text.decimal bitsPerSample ++ "bits".toList ++
    '_' :: Text.digits index) ++ ".mxf"

def getAudioFileName (options : ProgramOptions) (channels bitsPerSample : Int) (index : Nat) :
    String :=
  options.outputPath ++ "/" ++ audioFileName options channels bitsPerSample index

def colorName (options : ProgramOptions) : String :=
  match options.colorFormat with
  | .rgb444 => "RGB444_" ++ if options.fullRange then "RngFull" else "Rng274M"
  | .yuv444 => "YUV444"
  | .yuv422 => "YUV422"

def videoFileName (options : ProgramOptions) (width height : Int) (editRate : RationalNumber) :
    String :=
  "IMF_ODM_JPEG2000_" ++ String.ofList (Text.decimal width ++ 'x' :: Text.decimal height ++
    '_' :: (colorName options).toList ++ "_BCPL".toList ++ Text.decimal options.profile ++
    '_' :: fpsString rateText editRate ++ "fps_".toList ++
    Text.digits options.bitsPerComponent.bits ++ "bits".toList) ++ ".mxf"

def getVideoFileName (options : ProgramOptions) (width height : Int) (editRate : RationalNumber) :
    String :=
  options.outputPath ++ "/" ++ videoFileName rateText options width height editRate

end Names

end Imflib.Encoder
