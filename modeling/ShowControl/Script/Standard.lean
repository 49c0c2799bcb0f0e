/-! The standard templates, written in the script language. They play a file, and show or sound what
comes in. A script may define a template of the same name instead. -/

set_option autoImplicit false
namespace ShowControl.Script

def mp3Input : String :=
  "raw mp3input 1 filesrc name=src ! decodebin ! audioconvert ! audioresample ! " ++
    "proxysink name=audio_out\n" ++
  "src location string $1\n" ++
  "war\n"

def mp4Input : String :=
  "raw mp4input 2 filesrc name=src ! decodebin name=demux demux. ! videoconvert ! " ++
    "proxysink name=video_out demux. ! audioconvert ! audioresample ! proxysink name=audio_out\n" ++
  "src location string $1\n" ++
  "war\n"

def audioOutput : String :=
  "raw aoutput 1 proxysrc name=audio_in ! alsasink name=sink\n" ++
  "war\n"

/-- A sink with a window, which is hidden until it is shown. -/
def windowOutput : String :=
  "raw xoutput 1 proxysrc name=video_in ! xvimagesink name=sink\n" ++
  "raw gtktag string window\n" ++
  "raw x int $1\n" ++
  "raw y int $2\n" ++
  "raw width int $3\n" ++
  "raw height int $4\n" ++
  "war\n"

def standardScript : String := mp3Input ++ mp4Input ++ audioOutput ++ windowOutput

def standardNames : List String := ["mp3input", "mp4input", "aoutput", "xoutput"]

end ShowControl.Script
