import Dengjen.General.TransitionSystem
import Dengjen.General.GreedySegmentation
import Dengjen.General.ReadModifyWrite
import Dengjen.General.Semaphore
import Dengjen.General.Iteration
import Dengjen.General.LexicalPaths
import Dengjen.General.Traced
import Dengjen.General.Files
import Dengjen.General.Joined
import Dengjen.General.Spans
import Dengjen.General.Numerals
import Dengjen.General.Pieces
import Dengjen.General.Replacement
import Dengjen.General.Scanner
import Dengjen.Core.Integers
import Dengjen.Core.Error
import Dengjen.Core.CauseChains
import Dengjen.Core.ConfinedPath
import Dengjen.Core.HashMap
import Dengjen.Core.Speakers
import Dengjen.Core.Tokens
import Dengjen.Core.Model
import Dengjen.Piper.SynthConfig
import Dengjen.Piper.Config
import Dengjen.Piper.Voice
import Dengjen.Piper.Streaming
import Dengjen.Piper.ChunkPlanning
import Dengjen.Melo.Config
import Dengjen.Melo.Voice
import Dengjen.Melo.Transport
import Dengjen.Kokoro.Voice
import Dengjen.Kokoro.Sentence
import Dengjen.Kokoro.TokenChunks
import Dengjen.Kokoro.Streaming
import Dengjen.Kokoro.Substitutions
import Dengjen.Kokoro.Moras
import Dengjen.Text.Tokenizers
import Dengjen.Text.Framing
import Dengjen.Melo.Alignment
import Dengjen.Backends
import Dengjen.Backends.ConfigHistory
import Dengjen.Backends.EffectiveParameters
import Dengjen.Backends.Loading
import Dengjen.Synth.Wrapper
import Dengjen.Synth.AudioOutputConfig
import Dengjen.Synth.SpeechStreams
import Dengjen.Synth.Realtime
import Dengjen.Grpc.SynthOptions
import Dengjen.Grpc.SynthesisCap
import Dengjen.Grpc.Registry
import Dengjen.Grpc.FailedRegistration
import Dengjen.Frontends.OptionUpdates
import Dengjen.Frontends.Cli
import Dengjen.Capi.RealtimePool
import Dengjen.Capi.Voices.Model
import Dengjen.Capi.Voices.ThreadLocal
import Dengjen.Capi.Voices.Unload
import Dengjen.Capi.FfiError
import Dengjen.Capi.SpeakEvents
import Dengjen.General.Registrations
import Dengjen.General.CriticalSections
import Dengjen.Capi.OrtEnvironment
import Dengjen.Espeak.Phonemize
import Dengjen.Espeak.Concurrency
import Dengjen.Bindings.SpeakCalls
import Dengjen.Bindings.GoCallbacks
import Dengjen.Bindings.JavaTrampolines
import Dengjen.Capi.DefaultConfig
import Dengjen.Audio.Samples
import Dengjen.Audio.WaveWriter
import Dengjen.Audio.AtomicWrites
import Dengjen.Hebrew.Nakdimon
import Dengjen.Hebrew.Ipa
import Dengjen.Hebrew.Segments
import Dengjen.Hebrew.Vowels
import Dengjen.Hebrew.Sheva
import Dengjen.Hebrew.Shape
import Dengjen.Hebrew.Sentences
import Dengjen.Hebrew.Foreign
import Dengjen.Hebrew.Punctuation
import Dengjen.Kokoro.Japanese
import Dengjen.Kokoro.JapaneseSpacing
import Dengjen.Pinyin.Tokenize
import Dengjen.Pinyin.G2pw
import Dengjen.Pinyin.Numbers
import Dengjen.Pinyin.NumberScanners
import Dengjen.Pinyin.PlainDigits
import Dengjen.Pinyin.NumberContexts
import Dengjen.Pinyin.NumberPaths
import Dengjen.Pinyin.NumberSegments
import Dengjen.Capi.CancelSlot
import Dengjen.Espeak.Clauses
import Dengjen.Espeak.LanguageSwitches
import Dengjen.Audio.TrailingSilence
import Dengjen.Audio.Overlap
import Dengjen.Piper.ChunkOrder
import Dengjen.Pinyin.TokenMap
import Dengjen.Pinyin.Windows
import Dengjen.Kokoro.MoraSegments
import Dengjen.General.LastArgmax
import Dengjen.Text.Inference
import Dengjen.Pinyin.Dictionaries
import Dengjen.Pinyin.Resolution
import Dengjen.General.PrefixCodes
import Dengjen.Pinyin.Syllables
import Dengjen.Melo.Mandarin
import Dengjen.Hebrew.Engine
import Dengjen.General.BoundedChannel
import Dengjen.Grpc.Delivery
import Dengjen.Frontends.OneSound
import Dengjen.General.Drafts
import Dengjen.Bindings.NativeLibrary
import Dengjen.General.Layouts
import Dengjen.Bindings.SynthesisParams
import Dengjen.General.Traversals
import Dengjen.General.FirstError
import Dengjen.Kokoro.Spelling
import Dengjen.Kokoro.JapaneseText
import Dengjen.Stt.Recognizer
import Dengjen.Piper.Phonemizers
